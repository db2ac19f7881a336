/-!
# LibCheck.Bytes

Buffer plumbing over lists: copying a block into a buffer, sliding a buffer
to the left, and the `take`/`drop` lemmas of both.

Everything here is proved once so that the stream proofs never redo list
arithmetic.  This module depends only on the Lean 4 core library.
-/

namespace LibCheck

/-! ## copying a block into a buffer -/

/-- `overwrite buf off xs` stores the block `xs` at offset `off` of `buf`;
what lies before and after the block is kept. -/
def overwrite (buf : List α) (off : Nat) (xs : List α) : List α :=
  buf.take off ++ xs ++ buf.drop (off + xs.length)

/-- A block that fits leaves the buffer's length unchanged. -/
theorem length_overwrite {buf xs : List α} (h : off + xs.length ≤ buf.length) :
    (overwrite buf off xs).length = buf.length := by
  simp only [overwrite, List.length_append, List.length_take, List.length_drop]
  omega

/-- What is read back up to the end of the block: the old front, then the block. -/
theorem take_overwrite {buf : List α} (xs : List α) (h : off ≤ buf.length) :
    (overwrite buf off xs).take (off + xs.length) = buf.take off ++ xs := by
  apply List.take_left'
  simp only [List.length_append, List.length_take]
  omega

/-! ## sliding a buffer -/

/-- `slide buf n k` moves the `k` elements at offset `n` to the front of the
buffer; everything from offset `k` on is left as it was. -/
def slide (buf : List α) (n k : Nat) : List α :=
  overwrite buf 0 ((buf.drop n).take k)

theorem length_slide {buf : List α} (h : n + k ≤ buf.length) :
    (slide buf n k).length = buf.length := by
  apply length_overwrite
  simp only [List.length_take, List.length_drop]
  omega

/-- The front of a slid buffer is the tail of its old window. -/
theorem take_slide {buf : List α} (h : n + k ≤ buf.length) :
    (slide buf n k).take k = (buf.take (n + k)).drop n := by
  have hlen : ((buf.drop n).take k).length = k := by
    simp only [List.length_take, List.length_drop]
    omega
  have hread := take_overwrite ((buf.drop n).take k) (Nat.zero_le buf.length)
  rw [hlen, Nat.zero_add] at hread
  rw [slide, hread, List.take_zero, List.nil_append, List.drop_take, Nat.add_sub_cancel_left]

end LibCheck
