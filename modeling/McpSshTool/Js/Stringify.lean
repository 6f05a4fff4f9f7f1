import Mathlib.Algebra.BigOperators.Group.List.Basic
import McpSshTool.Js.Text
import McpSshTool.Js.Utf8
import McpSshTool.Js.Value

/-!
# JSON text and its size

`JSON.stringify`, and how many bytes a text takes: as it is, and inside a JSON string, where some
characters are escaped.

* `stringify` — the JSON text of a value;
* `Utf8.size`, `JsText.escapedSize` — the bytes of a text, and of what stands for it between
  quotation marks.
-/

namespace Value

mutual

/-- `JSON.stringify(v)`; `undefined` has no text. -/
def stringify (nt : NumberText) : Value → Option String
  | undefined => none
  | null => some "null"
  | bool b => some (toString b)
  | num (.fin q) => some (nt.render (.fin q))
  | num _ => some "null"
  | str s => some (JsText.quote s)
  | arr xs => some ("[" ++ ",".intercalate (stringifyElements nt xs) ++ "]")
  | obj fs => some ("\x7b" ++ ",".intercalate (stringifyMembers nt fs) ++ "\x7d")

def stringifyElements (nt : NumberText) : List Value → List String
  | [] => []
  | x :: xs => (stringify nt x).getD "null" :: stringifyElements nt xs

/-- Members without a text are left out. -/
def stringifyMembers (nt : NumberText) : Fields → List String
  | [] => []
  | (k, v) :: fs =>
    match stringify nt v with
    | none => stringifyMembers nt fs
    | some text => (JsText.quote k ++ ":" ++ text) :: stringifyMembers nt fs

end

theorem stringifyMembers_append (nt : NumberText) (fs gs : Fields) :
    stringifyMembers nt (fs ++ gs) = stringifyMembers nt fs ++ stringifyMembers nt gs := by
  induction fs with
  | nil => rw [stringifyMembers, List.nil_append, List.nil_append]
  | cons e fs ih =>
    obtain ⟨k, v⟩ := e
    rw [List.cons_append, stringifyMembers, stringifyMembers]
    split
    · exact ih
    · rw [ih, List.cons_append]

end Value

/-! ### Sizes -/

namespace Utf8

/-- The number of bytes of a text. -/
def size (s : String) : ℕ := (encode s).length

theorem size_eq (s : String) : size s = (s.toList.map Char.utf8Size).sum := by
  rw [size, encode_eq, List.length_flatMap]
  simp only [String.length_utf8EncodeChar]

@[simp] theorem size_append (s t : String) : size (s ++ t) = size s + size t := by
  rw [size_eq, size_eq, size_eq, String.toList_append, List.map_append, List.sum_append]

@[simp] theorem size_empty : size "" = 0 := rfl

theorem size_intercalate (separator t : String) (ts : List String) :
    size (separator.intercalate (t :: ts)) =
      size t + (ts.map fun u => size separator + size u).sum := by
  induction ts generalizing t with
  | nil =>
    rw [size_eq, String.toList_intercalate, size_eq]
    simp [List.intercalate]
  | cons u ts ih =>
    have hcons : separator.intercalate (t :: u :: ts) =
        t ++ separator ++ separator.intercalate (u :: ts) := by
      rw [← String.toList_inj, String.toList_append, String.toList_append,
        String.toList_intercalate, String.toList_intercalate, List.append_assoc]
      simp [List.intercalate]
    rw [hcons, size_append, size_append, ih, List.map_cons, List.sum_cons]
    omega

end Utf8

namespace JsText

/-- The number of bytes that stand for a character inside a JSON string. -/
def quotedSize (c : Char) : ℕ := ((quoteChar c).map Char.utf8Size).sum

/-- The number of bytes that stand for a text between quotation marks. -/
def escapedSize (s : String) : ℕ := (s.toList.map quotedSize).sum

@[simp] theorem escapedSize_empty : escapedSize "" = 0 := rfl

/-- **A quoted text** takes its escaped size and two quotation marks. -/
theorem size_quote (s : String) : Utf8.size (quote s) = escapedSize s + 2 := by
  rw [Utf8.size_eq, toList_quote, List.map_cons, List.sum_cons, List.map_append, List.sum_append,
    List.map_flatMap, List.flatMap_def, List.sum_flatten, List.map_map]
  show 1 + ((s.toList.map quotedSize).sum + 1) = escapedSize s + 2
  rw [escapedSize]
  omega

theorem escapedSize_nulls (n : ℕ) :
    escapedSize (String.ofList (List.replicate n (Char.ofNat 0))) = 6 * n := by
  rw [escapedSize, String.toList_ofList]
  induction n with
  | zero => rfl
  | succ n ih =>
    rw [List.replicate_succ, List.map_cons, List.sum_cons, ih,
      show quotedSize (Char.ofNat 0) = 6 from rfl]
    omega

end JsText
