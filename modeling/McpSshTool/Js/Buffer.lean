import Mathlib.Data.List.Basic
import McpSshTool.Js.Text
import McpSshTool.Js.Utf8

/-!
# Buffers

* `readUIntBE`, `uintBE` — `buffer.readUInt16BE`, `buffer.readBigUInt64BE` and the writers that go
  with them: an integer as its bytes, the most significant first.
* `toHex`, `toBase64` — `buffer.toString("hex")` and `buffer.toString("base64")`.
-/

namespace Buffer

/-- The integer that the bytes write. -/
def readUIntBE (bytes : List UInt8) : ℕ := bytes.foldl (fun n b => n * 256 + b.toNat) 0

/-- The integer in as many bytes as asked for. -/
def uintBE : ℕ → ℕ → List UInt8
  | 0, _ => []
  | size + 1, n => uintBE size (n / 256) ++ [UInt8.ofNat (n % 256)]

theorem length_uintBE (size n : ℕ) : (uintBE size n).length = size := by
  induction size generalizing n with
  | zero => rfl
  | succ size ih => rw [uintBE, List.length_append, ih, List.length_singleton]

theorem readUIntBE_append_singleton (bytes : List UInt8) (b : UInt8) :
    readUIntBE (bytes ++ [b]) = readUIntBE bytes * 256 + b.toNat := by
  rw [readUIntBE, List.foldl_append, List.foldl_cons, List.foldl_nil, readUIntBE]

/-- **An integer that fits is read back.** -/
theorem readUIntBE_uintBE {size n : ℕ} (h : n < 256 ^ size) : readUIntBE (uintBE size n) = n := by
  induction size generalizing n with
  | zero =>
    rw [Nat.pow_zero] at h
    obtain rfl : n = 0 := by omega
    rfl
  | succ size ih =>
    have hrest : n / 256 < 256 ^ size := by
      rw [Nat.pow_succ] at h
      exact Nat.div_lt_of_lt_mul (by omega)
    rw [uintBE, readUIntBE_append_singleton, ih hrest,
      Utf8.toNat_ofNat_byte (Nat.mod_lt n (by decide))]
    omega

/-! ### Texts of bytes -/

/-- `buffer.toString("hex")`. -/
def toHex (bytes : List UInt8) : String :=
  String.ofList (bytes.flatMap fun b => [JsText.hexDigit (b.toNat / 16),
    JsText.hexDigit (b.toNat % 16)])

/-- A digit of base64. -/
def base64Digit (n : ℕ) : Char :=
  "ABCDEFGHIJKLMNOPQRSTUVWXYZabcdefghijklmnopqrstuvwxyz0123456789+/".toList.getD n 'A'

/-- Three bytes make four digits; the last group is filled up with `=`. -/
def base64Chars : List UInt8 → List Char
  | a :: b :: c :: rest =>
    let n := (a.toNat * 256 + b.toNat) * 256 + c.toNat
    [base64Digit (n / 262144), base64Digit (n / 4096 % 64), base64Digit (n / 64 % 64),
      base64Digit (n % 64)] ++ base64Chars rest
  | [a, b] =>
    let n := a.toNat * 256 + b.toNat
    [base64Digit (n / 1024), base64Digit (n / 16 % 64), base64Digit (n % 16 * 4), '=']
  | [a] => [base64Digit (a.toNat / 4), base64Digit (a.toNat % 4 * 16), '=', '=']
  | [] => []

/-- `buffer.toString("base64")`. -/
def toBase64 (bytes : List UInt8) : String := String.ofList (base64Chars bytes)

example : toBase64 (Utf8.encode "hosts") = "aG9zdHM=" := by decide +kernel

end Buffer
