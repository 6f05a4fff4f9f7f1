import McpSshTool.Remote.Executor

/-!
# Output in chunks

Output that arrives in chunks is cut where the whole of it would be cut, and so is a file of which
no more is read than one byte past the limit.

* `Keeps` — what an accumulator stands for: the first of the bytes seen, and whether there were
  more;
* `keeps_append`, `keeps_accumulated` — one chunk keeps it, and so does a stream;
* `bounded_output_whole` — the incremental functions give what `truncateBuffer` gives.

The cut depends on the first bytes of a buffer only (`appendTruncationMarker_take`), so what an
accumulator or a reader has left out does not show.
-/

open Library

namespace Remote

/-! ### Buffers -/

theorem concatBytes_flatten (chunks : List (List UInt8)) :
    concatBytes chunks chunks.flatten.length = chunks.flatten := by
  rw [concatBytes, List.take_length, Nat.sub_self, List.replicate_zero, List.append_nil]

/-- **A cut looks at the first bytes only.** -/
theorem appendTruncationMarker_take (buffer : List UInt8) {maxBytes n : ℕ} (h : maxBytes ≤ n) :
    appendTruncationMarker (buffer.take n) maxBytes = appendTruncationMarker buffer maxBytes := by
  unfold appendTruncationMarker
  split
  · rfl
  · dsimp only
    split
    · rfl
    · -- the payload ends before the bytes that are left out
      rw [List.take_take, Nat.min_eq_left (by omega)]

theorem truncateBuffer_take (buffer : List UInt8) (maxBytes : ℕ) :
    truncateBuffer (buffer.take (maxBytes + 1)) maxBytes = truncateBuffer buffer maxBytes := by
  unfold truncateBuffer
  by_cases hfits : buffer.length ≤ maxBytes
  · rw [List.take_of_length_le (by omega)]
  · rw [if_neg hfits, if_neg (by rw [List.length_take]; omega)]
    exact appendTruncationMarker_take buffer (Nat.le_succ maxBytes)

/-- `readFileBounded`, once its stream has ended: the chunks are what the stream has read. -/
def readFileBounded (chunks : List (List UInt8)) (maxBytes : ℕ) : List UInt8 × Bool :=
  truncateBuffer (concatBytes chunks (chunks.map List.length).sum) maxBytes

/-- **A file is cut as the whole of it would be**, however the stream has cut what it has read. -/
theorem readFileBounded_eq {content : List UInt8} {chunks : List (List UInt8)} {maxBytes : ℕ}
    (h : chunks.flatten = content.take (maxBytes + 1)) :
    readFileBounded chunks maxBytes = truncateBuffer content maxBytes := by
  rw [readFileBounded, ← List.length_flatten, concatBytes_flatten, h, truncateBuffer_take]

/-! ### Accumulators -/

/-- The bytes that an accumulator holds. -/
def OutputAccumulator.kept (accumulator : OutputAccumulator) : List UInt8 :=
  concatBytes accumulator.chunks accumulator.bytes

/-- The accumulator of a stream, once these chunks have arrived. -/
def accumulated (chunks : List (List UInt8)) (maxBytes : ℕ) : OutputAccumulator :=
  chunks.foldl (fun accumulator chunk => appendBoundedOutput accumulator chunk maxBytes)
    { bytes := 0, chunks := [], truncated := false }

/-- **What an accumulator stands for**: the first of the bytes seen, and whether there were more. -/
structure Keeps (maxBytes : ℕ) (seen : List UInt8) (accumulator : OutputAccumulator) : Prop where
  chunks : accumulator.chunks.flatten = seen.take maxBytes
  bytes : accumulator.bytes = (seen.take maxBytes).length
  truncated : accumulator.truncated = decide (maxBytes < seen.length)

section Accumulators

variable {maxBytes : ℕ} {seen : List UInt8} {accumulator : OutputAccumulator}

theorem Keeps.kept_eq (h : Keeps maxBytes seen accumulator) :
    accumulator.kept = seen.take maxBytes := by
  rw [OutputAccumulator.kept, h.bytes, ← h.chunks, concatBytes_flatten]

/-- **A chunk that arrives** is seen, and kept as far as there is room. -/
theorem keeps_append (h : Keeps maxBytes seen accumulator) {chunk : List UInt8}
    (hchunk : chunk ≠ []) :
    Keeps maxBytes (seen ++ chunk) (appendBoundedOutput accumulator chunk maxBytes) := by
  have hpos : 0 < chunk.length := List.length_pos_iff.mpr hchunk
  have hbytes : accumulator.bytes = min maxBytes seen.length := by
    rw [h.bytes, List.length_take]
  unfold appendBoundedOutput
  split
  · -- nothing is kept at all, but the chunk is noticed
    next hzero =>
    obtain rfl : maxBytes = 0 := by omega
    refine ⟨h.chunks, h.bytes, ?_⟩
    show (accumulator.truncated || decide (0 < chunk.length)) = _
    rw [decide_eq_true hpos, Bool.or_true, List.length_append, decide_eq_true (by omega)]
  · split
    · -- no room is left
      next hfull =>
      have hle : maxBytes ≤ seen.length := by omega
      have htake : (seen ++ chunk).take maxBytes = seen.take maxBytes :=
        List.take_append_of_le_length hle
      refine ⟨?_, ?_, ?_⟩
      · rw [htake]
        exact h.chunks
      · rw [htake]
        exact h.bytes
      · show true = _
        rw [List.length_append, decide_eq_true (by omega)]
    · next hroom =>
      have hlt : seen.length < maxBytes := by omega
      have hseen : seen.take maxBytes = seen := List.take_of_length_le (by omega)
      have htake : (seen ++ chunk).take maxBytes =
          seen ++ chunk.take (maxBytes - accumulator.bytes) := by
        rw [List.take_append, hseen, hbytes, Nat.min_eq_right (by omega)]
      refine ⟨?_, ?_, ?_⟩
      · show (accumulator.chunks ++ [chunk.take (maxBytes - accumulator.bytes)]).flatten = _
        rw [List.flatten_append, h.chunks, hseen, List.flatten_singleton, htake]
      · show accumulator.bytes + (chunk.take (maxBytes - accumulator.bytes)).length = _
        rw [htake, List.length_append, hbytes, Nat.min_eq_right (by omega)]
      · show (accumulator.truncated || decide (_ ≠ chunk.length)) = _
        have hkept : accumulator.truncated = false := by
          rw [h.truncated, decide_eq_false (by omega)]
        rw [hkept, Bool.false_or, List.length_take, List.length_append, hbytes]
        exact decide_eq_decide.mpr (by omega)

theorem keeps_foldl (h : Keeps maxBytes seen accumulator) {chunks : List (List UInt8)}
    (hchunks : ∀ chunk ∈ chunks, chunk ≠ []) :
    Keeps maxBytes (seen ++ chunks.flatten)
      (chunks.foldl (fun accumulator chunk => appendBoundedOutput accumulator chunk maxBytes)
        accumulator) := by
  induction chunks generalizing seen accumulator with
  | nil =>
    rw [List.flatten_nil, List.append_nil]
    exact h
  | cons chunk chunks ih =>
    rw [List.forall_mem_cons] at hchunks
    rw [List.flatten_cons, ← List.append_assoc, List.foldl_cons]
    exact ih (keeps_append h hchunks.1) hchunks.2

theorem keeps_accumulated {chunks : List (List UInt8)} (hchunks : ∀ chunk ∈ chunks, chunk ≠ []) :
    Keeps maxBytes chunks.flatten (accumulated chunks maxBytes) := by
  have hempty : Keeps maxBytes [] { bytes := 0, chunks := [], truncated := false } := by
    refine ⟨?_, ?_, ?_⟩
    · rw [List.take_nil]
      rfl
    · rw [List.take_nil]
      rfl
    · exact (decide_eq_false (Nat.not_lt_zero maxBytes)).symm
  exact keeps_foldl hempty hchunks

theorem finalizeBoundedOutput_eq (h : Keeps maxBytes seen accumulator) :
    finalizeBoundedOutput accumulator maxBytes = truncateBuffer seen maxBytes := by
  have hkept : concatBytes accumulator.chunks accumulator.bytes = seen.take maxBytes := h.kept_eq
  unfold finalizeBoundedOutput truncateBuffer
  dsimp only
  rw [hkept, h.truncated]
  by_cases hfits : seen.length ≤ maxBytes
  · rw [if_pos hfits, decide_eq_false (by omega), List.take_of_length_le hfits]
    rfl
  · rw [if_neg hfits, decide_eq_true (by omega),
      ← appendTruncationMarker_take seen (le_refl maxBytes)]
    rfl

theorem boundedOutput_eq {chunks : List (List UInt8)} (hchunks : ∀ chunk ∈ chunks, chunk ≠ []) :
    boundedOutput chunks maxBytes = truncateBuffer chunks.flatten maxBytes :=
  finalizeBoundedOutput_eq (keeps_accumulated hchunks)

end Accumulators

end Remote
