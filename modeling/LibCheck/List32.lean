import LibCheck.CkList
import LibCheck.Platform

/-!
# LibCheck.List32

`check_list.c` with the types of the source: 32-bit counts, `int` indices, and
a fault where a count or an index overflows, where a slot outside of the block is
written, or where one is read that holds no element.

* `List32.exec` — the operations of the source, over `struct List`.
* `Sequence` — what such a list is for: a sequence with a position in it.
* `check_list_refines` — as long as there are at most `INT_MAX` elements, no
  operation faults and all of them answer as those of a sequence do.

The operations compute those of `ListRec`, where the numbers have no bounds
(`List32.toRec`); what these do to the represented sequence is known.
-/

namespace LibCheck

open Prog

/-! ## the operations of check_list.c -/

/-- `struct List`.  The block `data` has `max_elts` slots, of which only the
first `n_elts` have been written. -/
structure List32 (α : Type) where
  nElts : UInt32
  maxElts : UInt32
  current : Int32
  last : Int32
  data : List (Option α)
deriving DecidableEq, Repr

/-- What an operation must not do. -/
inductive ListFault where
  /-- a count or an index overflows -/
  | overflow
  /-- a slot is written that the block does not have -/
  | badWrite
  /-- a slot is read that holds no element -/
  | badRead
  /-- a loop runs past its budget -/
  | diverged
deriving DecidableEq, Repr

/-- Programs over a list. -/
abbrev ListM (α : Type) := EStateM ListFault (List32 α)

namespace List32

variable {α : Type}

/-- `++` of an `int`. -/
def incr (i : Int32) : ListM α Int32 :=
  if i.toInt < intMax then pure (i + 1) else throw .overflow

/-- `++` of an `unsigned int`. -/
def incrCount (n : UInt32) : ListM α UInt32 :=
  if n.toNat < uint32Max then pure (n + 1) else throw .overflow

/-- `lp->data[i]`. -/
def readSlot (i : Int32) : ListM α (Option α) := do
  let l ← read id
  if 0 ≤ i.toInt ∧ i.toInt < l.nElts.toNat then pure (l.data[i.toInt.toNat]?).join
  else throw .badRead

/-- `lp->data[i] = val`. -/
def writeSlot (i : Int32) (val : α) : ListM α Unit := do
  let l ← read id
  if 0 ≤ i.toInt ∧ i.toInt < l.maxElts.toNat then
    update fun l => { l with data := l.data.set i.toInt.toNat (some val) }
  else throw .badWrite

/-- `memmove(lp->data + 1, lp->data, lp->n_elts * sizeof lp->data[0])`, which
writes the slots from `1` to `n_elts`. -/
def moveUp : ListM α Unit := do
  let l ← read id
  let n := l.nElts.toNat
  if n = 0 ∨ n < l.maxElts.toNat then
    update fun l => { l with data := l.data.take 1 ++ l.data.take n ++ l.data.drop (n + 1) }
  else throw .badWrite

/-- `check_list_create`. -/
def create : List32 α where
  nElts := 0
  maxElts := 1
  data := [none]
  current := -1
  last := -1

/-- `maybe_grow`. -/
def maybeGrow : ListM α Unit := do
  let l ← read id
  if l.nElts ≥ l.maxElts then
    if l.maxElts.toNat * 2 ≤ uint32Max then
      update fun l =>
        { l with
          maxElts := l.maxElts * 2
          data := l.data ++ List.replicate l.maxElts.toNat none }
    else throw .overflow
  else pure ()

/-- `check_list_add_front`. -/
def addFront (val : α) : ListM α Unit := do
  maybeGrow
  moveUp
  let last ← incr (← read List32.last)
  update fun l => { l with last := last }
  let nElts ← incrCount (← read List32.nElts)
  update fun l => { l with nElts := nElts }
  update fun l => { l with current := 0 }
  writeSlot (← read List32.current) val

/-- `check_list_add_end`. -/
def addEnd (val : α) : ListM α Unit := do
  maybeGrow
  let last ← incr (← read List32.last)
  update fun l => { l with last := last }
  let nElts ← incrCount (← read List32.nElts)
  update fun l => { l with nElts := nElts }
  update fun l => { l with current := l.last }
  writeSlot (← read List32.current) val

/-- `check_list_at_end`. -/
def atEnd : ListM α Bool := read fun l => decide (l.current = -1 ∨ l.current > l.last)

/-- `check_list_front`. -/
def front : ListM α Unit := do
  if ← read fun l => decide (l.current = -1) then pure ()
  else update fun l => { l with current := 0 }

/-- `check_list_val`; `none` is the null pointer. -/
def val : ListM α (Option α) := do
  if ← read fun l => decide (l.current = -1 ∨ l.current > l.last) then pure none
  else readSlot (← read List32.current)

/-- `check_list_advance`. -/
def advance : ListM α Unit := do
  if ← atEnd then pure ()
  else do
    let current ← incr (← read List32.current)
    update fun l => { l with current := current }

/-- The loop of `check_list_contains`. -/
def containsLoop [DecidableEq α] (v : α) : Nat → ListM α Bool
  | 0 => throw .diverged
  | fuel + 1 => do
      if ← atEnd then pure false
      else if (← val) = some v then pure true
      else do
        advance
        containsLoop v fuel

/-- The loop of `check_list_apply`: what the function is called with. -/
def applyLoop : Nat → ListM α (List (Option α))
  | 0 => throw .diverged
  | fuel + 1 => do
      if ← atEnd then pure []
      else do
        let v ← val
        advance
        let vs ← applyLoop fuel
        pure (v :: vs)

end List32

/-- The calls of the functions of `check_list.c`. -/
inductive ListOp (α : Type) where
  | create
  | addFront (val : α)
  | addEnd (val : α)
  | front
  | advance
  | val
  | atEnd
  | contains (val : α)
  | apply
deriving DecidableEq, Repr

/-- What a call returns, or the arguments that `check_list_apply` calls its
function with. -/
inductive ListReply (α : Type) where
  | done
  | bool (b : Bool)
  | val (v : Option α)
  | visited (vs : List (Option α))
deriving DecidableEq, Repr

namespace List32

variable {α : Type} [DecidableEq α]

/-- A call; its loops may make `fuel` iterations. -/
def exec (fuel : Nat) : ListOp α → ListM α (ListReply α)
  | .create => do
      update fun _ => create
      pure .done
  | .addFront v => do
      addFront v
      pure .done
  | .addEnd v => do
      addEnd v
      pure .done
  | .front => do
      front
      pure .done
  | .advance => do
      advance
      pure .done
  | .val => do
      let v ← val
      pure (.val v)
  | .atEnd => do
      let b ← atEnd
      pure (.bool b)
  | .contains v => do
      front
      let b ← containsLoop v fuel
      pure (.bool b)
  | .apply => do
      front
      let vs ← applyLoop fuel
      pure (.visited vs)

/-- A sequence of calls. -/
def run (fuel : Nat) : List (ListOp α) → ListM α (List (ListReply α))
  | [] => pure []
  | op :: ops => do
      let r ← exec fuel op
      let rs ← run fuel ops
      pure (r :: rs)

end List32

/-! ## sequences with a position -/

/-- A sequence with a position in it, which may be the one past its end. -/
structure Sequence (α : Type) where
  elems : List α
  pos : Nat
  pos_le : pos ≤ elems.length

namespace Sequence

variable {α : Type}

/-- The empty sequence. -/
def empty : Sequence α := ⟨[], 0, Nat.le_refl 0⟩

/-- Put the position on the first element. -/
def front (s : Sequence α) : Sequence α := ⟨s.elems, 0, Nat.zero_le _⟩

/-- The element at the position. -/
def val (s : Sequence α) : Option α := s.elems[s.pos]?

/-- Move on by one, up to the end. -/
def advance (s : Sequence α) : Sequence α :=
  ⟨s.elems, min (s.pos + 1) s.elems.length, Nat.min_le_right _ _⟩

/-- Put the position on the first element that is `v`, or past the end. -/
def find [DecidableEq α] (v : α) (s : Sequence α) : Sequence α :=
  ⟨s.elems, s.elems.idxOf v, List.idxOf_le_length⟩

/-- Put the position past the end. -/
def toEnd (s : Sequence α) : Sequence α := ⟨s.elems, s.elems.length, Nat.le_refl _⟩

/-- What the calls of `check_list.c` are to do. -/
def step [DecidableEq α] (s : Sequence α) : ListOp α → ListReply α × Sequence α
  | .create => (.done, empty)
  | .addFront v => (.done, ⟨v :: s.elems, 0, Nat.zero_le _⟩)
  | .addEnd v => (.done, ⟨s.elems ++ [v], s.elems.length, by simp⟩)
  | .front => (.done, s.front)
  | .advance => (.done, s.advance)
  | .val => (.val s.val, s)
  | .atEnd => (.bool (s.pos = s.elems.length), s)
  | .contains v => (.bool (v ∈ s.elems), s.find v)
  | .apply => (.visited (s.elems.map some), s.toEnd)

/-- The replies to a sequence of calls, and the sequence after them. -/
def run [DecidableEq α] (s : Sequence α) : List (ListOp α) → List (ListReply α) × Sequence α
  | [] => ([], s)
  | op :: ops => ((s.step op).1 :: ((s.step op).2.run ops).1, ((s.step op).2.run ops).2)

/-- There are never more than `INT_MAX` elements. -/
def Fits [DecidableEq α] (s : Sequence α) : List (ListOp α) → Prop
  | [] => s.elems.length ≤ intMax
  | op :: ops => s.elems.length ≤ intMax ∧ (s.step op).2.Fits ops

instance decidableFits [DecidableEq α] (s : Sequence α) (ops : List (ListOp α)) :
    Decidable (s.Fits ops) :=
  match ops with
  | [] => inferInstanceAs (Decidable (_ ≤ _))
  | op :: ops =>
      have := decidableFits (s.step op).2 ops
      inferInstanceAs (Decidable (_ ∧ _))

theorem Fits.length_le [DecidableEq α] {s : Sequence α} {ops : List (ListOp α)} (h : s.Fits ops) :
    s.elems.length ≤ intMax := by
  cases ops with
  | nil => exact h
  | cons op ops => exact h.1

end Sequence

/-! ## the operations keep within their bounds -/

namespace List32

variable {α : Type}

/-- The list with numbers that have no bounds. -/
def toRec (l : List32 α) : ListRec α where
  nElts := l.nElts.toNat
  maxElts := l.maxElts.toNat
  current := l.current.toInt
  last := l.last.toInt
  data := l.data

/-- The list represents the sequence `xs` with its cursor at position `k`. -/
abbrev Rep (l : List32 α) (xs : List α) (k : Nat) : Prop := l.toRec.Rep xs k

theorem rep_create : (create : List32 α).Rep [] 0 := ListRec.rep_create

variable {l : List32 α} {xs : List α} {k : Nat}

theorem toInt_succ {i : Int32} (h : i.toInt < intMax) : (i + 1).toInt = i.toInt + 1 := by
  have hlo := i.le_toInt
  rw [intMax] at h
  rw [Int32.toInt_add, Int32.toInt_one, Int.bmod_eq_of_le] <;> omega

theorem incr_of_lt {i : Int32} (h : i.toInt < intMax) (l : List32 α) :
    incr i l = .ok (i + 1) l := by
  rw [incr, if_pos h]
  rfl

theorem incrCount_of_lt {n : UInt32} (h : n.toNat < uint32Max) (l : List32 α) :
    incrCount n l = .ok (n + 1) l := by
  rw [incrCount, if_pos h]
  rfl

theorem toNat_succ {n : UInt32} (h : n.toNat < uint32Max) : (n + 1).toNat = n.toNat + 1 := by
  rw [uint32Max] at h
  rw [UInt32.toNat_add, UInt32.toNat_one]
  omega

/-- A count that is no greater than `INT_MAX` has room for its double. -/
theorem toNat_double {n : UInt32} (h : n.toNat ≤ intMax) : (n * 2).toNat = n.toNat * 2 := by
  rw [intMax] at h
  rw [UInt32.toNat_mul, show (2 : UInt32).toNat = 2 from rfl]
  omega

theorem current_eq_neg_one_iff (l : List32 α) : l.current = -1 ↔ l.toRec.current = -1 := by
  rw [← Int32.toInt_inj]
  rfl

theorem current_gt_last_iff (l : List32 α) : l.current > l.last ↔ l.toRec.current > l.toRec.last :=
  Int32.lt_iff_toInt_lt

/-- Growing, as long as there is room for one more element. -/
theorem maybeGrow_ok (h : l.Rep xs k) (hn : xs.length < intMax) :
    ∃ l', maybeGrow l = .ok () l' ∧ l'.toRec = l.toRec.maybeGrow := by
  have hnElts : l.nElts.toNat = xs.length := h.nElts
  unfold maybeGrow ListRec.maybeGrow
  rw [read_bind]
  by_cases hfull : l.nElts ≥ l.maxElts
  · have hfull' : l.toRec.nElts ≥ l.toRec.maxElts := UInt32.le_iff_toNat_le.mp hfull
    have hmax : l.maxElts.toNat ≤ intMax := by
      have hle : l.maxElts.toNat ≤ l.nElts.toNat := hfull'
      omega
    have hroom : l.maxElts.toNat * 2 ≤ uint32Max := by
      rw [intMax] at hmax
      rw [uint32Max]
      omega
    refine ⟨{ l with
      maxElts := l.maxElts * 2
      data := l.data ++ List.replicate l.maxElts.toNat none }, ?_, ?_⟩
    · simp only [id, if_pos hfull, if_pos hroom]
      rfl
    · rw [if_pos hfull']
      simp only [toRec, toNat_double hmax]
  · have hfull' : ¬l.toRec.nElts ≥ l.toRec.maxElts := fun hc =>
      hfull (UInt32.le_iff_toNat_le.mpr hc)
    exact ⟨l, by simp only [id, if_neg hfull]; rfl, by rw [if_neg hfull']⟩

/-- `check_list_add_end` computes what it computes without bounds. -/
theorem addEnd_ok (h : l.Rep xs k) (hn : xs.length < intMax) (v : α) :
    ∃ l', addEnd v l = .ok () l' ∧ l'.toRec = l.toRec.addEnd v := by
  obtain ⟨g, hg, hrec⟩ := maybeGrow_ok h hn
  obtain ⟨hrep, hroom⟩ := h.maybeGrow
  rw [← hrec] at hrep hroom
  have hnElts : g.nElts.toNat = xs.length := hrep.nElts
  have hmax : g.nElts.toNat < g.maxElts.toNat := hroom
  have hlast : g.last.toInt = (g.nElts.toNat : Int) - 1 := hrep.last
  have hlt : g.last.toInt < intMax := by omega
  have hcount : g.nElts.toNat < uint32Max := by
    rw [hnElts, uint32Max]
    rw [intMax] at hn
    omega
  have hidx := toInt_succ hlt
  have hin : 0 ≤ (g.last + 1).toInt ∧ (g.last + 1).toInt < g.maxElts.toNat := by omega
  refine ⟨{ g with
    last := g.last + 1
    nElts := g.nElts + 1
    current := g.last + 1
    data := g.data.set (g.last + 1).toInt.toNat (some v) }, ?_, ?_⟩
  · rw [addEnd, bind_of_ok _ hg, read_bind, bind_of_ok _ (incr_of_lt hlt g), update_bind, read_bind,
      bind_of_ok _ (incrCount_of_lt hcount _), update_bind, update_bind, read_bind, writeSlot,
      read_bind]
    simp only [id, if_pos hin]
    rfl
  · simp only [ListRec.addEnd, ← hrec]
    simp only [toRec, hidx, toNat_succ hcount]

/-- `check_list_add_front` computes what it computes without bounds. -/
theorem addFront_ok (h : l.Rep xs k) (hn : xs.length < intMax) (v : α) :
    ∃ l', addFront v l = .ok () l' ∧ l'.toRec = l.toRec.addFront v := by
  obtain ⟨g, hg, hrec⟩ := maybeGrow_ok h hn
  obtain ⟨hrep, hroom⟩ := h.maybeGrow
  rw [← hrec] at hrep hroom
  have hnElts : g.nElts.toNat = xs.length := hrep.nElts
  have hmax : g.nElts.toNat < g.maxElts.toNat := hroom
  have hlast : g.last.toInt = (g.nElts.toNat : Int) - 1 := hrep.last
  have hlt : g.last.toInt < intMax := by omega
  have hcount : g.nElts.toNat < uint32Max := by
    rw [hnElts, uint32Max]
    rw [intMax] at hn
    omega
  have hmove : moveUp g = .ok () { g with
      data := g.data.take 1 ++ g.data.take g.nElts.toNat ++ g.data.drop (g.nElts.toNat + 1) } := by
    rw [moveUp, read_bind]
    exact congrFun (if_pos (.inr hmax)) g
  have hin : 0 ≤ (0 : Int32).toInt ∧ (0 : Int32).toInt < g.maxElts.toNat := by
    rw [Int32.toInt_zero]
    omega
  refine ⟨{ g with
    last := g.last + 1
    nElts := g.nElts + 1
    current := 0
    data := (g.data.take 1 ++ g.data.take g.nElts.toNat ++ g.data.drop (g.nElts.toNat + 1)).set 0
      (some v) }, ?_, ?_⟩
  · rw [addFront, bind_of_ok _ hg, bind_of_ok _ hmove, read_bind, bind_of_ok _ (incr_of_lt hlt _),
      update_bind, read_bind, bind_of_ok _ (incrCount_of_lt hcount _), update_bind, update_bind,
      read_bind, writeSlot, read_bind]
    simp only [id, if_pos hin]
    rfl
  · simp only [ListRec.addFront, ← hrec]
    simp only [toRec, toInt_succ hlt, toNat_succ hcount, Int32.toInt_zero]

/-! ## traversal -/

theorem atEnd_apply (l : List32 α) : atEnd l = .ok l.toRec.atEnd l := by
  simp only [atEnd, read_apply, ListRec.atEnd, current_eq_neg_one_iff, current_gt_last_iff]

theorem front_ok (l : List32 α) : ∃ l', front l = .ok () l' ∧ l'.toRec = l.toRec.front := by
  unfold front ListRec.front
  rw [read_bind]
  by_cases h : l.current = -1
  · exact ⟨l, by simp only [h, decide_true, if_true]; rfl,
      by rw [if_pos ((current_eq_neg_one_iff l).mp h)]⟩
  · exact ⟨{ l with current := 0 },
      by simp only [h, decide_false, Bool.false_eq_true, if_false]; rfl,
      by rw [if_neg fun hc => h ((current_eq_neg_one_iff l).mpr hc)]; rfl⟩

/-- `check_list_val` reads a slot that holds an element. -/
theorem val_apply (h : l.Rep xs k) : val l = .ok xs[k]? l := by
  have hval := h.val_eq
  unfold ListRec.val at hval
  rw [val, read_bind]
  by_cases hend : l.current = -1 ∨ l.current > l.last
  · rw [if_pos (by rwa [current_eq_neg_one_iff, current_gt_last_iff] at hend)] at hval
    rw [← hval]
    simp only [hend, decide_true, if_true]
    rfl
  · have hin : ¬(l.toRec.current = -1 ∨ l.toRec.current > l.toRec.last) := by
      rwa [current_eq_neg_one_iff, current_gt_last_iff] at hend
    rw [if_neg hin] at hval
    have hlast : l.last.toInt = (l.nElts.toNat : Int) - 1 := h.last
    have hcur := h.current
    have hslot : 0 ≤ l.current.toInt ∧ l.current.toInt < l.nElts.toNat := by
      change ¬(l.current.toInt = -1 ∨ l.current.toInt > l.last.toInt) at hin
      change l.current.toInt = _ at hcur
      split at hcur <;> omega
    rw [← hval]
    simp only [hend, decide_false, Bool.false_eq_true, if_false, read_bind, readSlot, id,
      if_pos hslot]
    rfl

/-- `check_list_advance` stops at the end. -/
theorem advance_ok (h : l.Rep xs k) (hn : xs.length ≤ intMax) :
    ∃ l', advance l = .ok () l' ∧ l'.Rep xs (min (k + 1) xs.length) := by
  have hpos := h.pos
  rw [advance, bind_of_ok _ (atEnd_apply l)]
  by_cases hend : l.toRec.atEnd = true
  · refine ⟨l, by rw [if_pos hend]; rfl, ?_⟩
    have hk : xs.length ≤ k := h.atEnd_iff.mp hend
    rw [Nat.min_eq_right (by omega), show xs.length = k by omega]
    exact h
  · have hk : k < xs.length := Nat.lt_of_not_le fun hle => hend (h.atEnd_iff.mpr hle)
    have hcur : l.current.toInt = (k : Int) := by
      have hc := h.current
      rw [if_neg (List.ne_nil_of_length_pos (by omega))] at hc
      exact hc
    have hlt : l.current.toInt < intMax := by omega
    refine ⟨{ l with current := l.current + 1 }, ?_, ?_⟩
    · rw [if_neg hend, read_bind, bind_of_ok _ (incr_of_lt hlt l)]
      rfl
    · have hrec : ({ l with current := l.current + 1 } : List32 α).toRec = l.toRec.advance := by
        rw [ListRec.advance, if_neg hend]
        simp only [toRec, toInt_succ hlt]
      rw [Rep, hrec, Nat.min_eq_left hk]
      exact h.advance hk

/-- The loop of `check_list_contains` stops at the first element that is `v`. -/
theorem containsLoop_ok [DecidableEq α] (v : α) {fuel : Nat} (h : l.Rep xs k)
    (hn : xs.length ≤ intMax) (hfuel : xs.length - k < fuel) :
    ∃ l', containsLoop v fuel l = .ok (decide (v ∈ xs.drop k)) l' ∧
      l'.Rep xs (k + (xs.drop k).idxOf v) := by
  induction fuel generalizing l k with
  | zero => omega
  | succ fuel ih =>
      have hpos := h.pos
      rw [containsLoop, bind_of_ok _ (atEnd_apply l)]
      by_cases hend : l.toRec.atEnd = true
      · have hk : xs.length ≤ k := h.atEnd_iff.mp hend
        rw [List.drop_eq_nil_of_le hk]
        exact ⟨l, by rw [if_pos hend]; rfl, h⟩
      · have hk : k < xs.length := Nat.lt_of_not_le fun hle => hend (h.atEnd_iff.mpr hle)
        rw [if_neg hend, bind_of_ok _ (val_apply h), List.getElem?_eq_getElem hk,
          List.drop_eq_getElem_cons hk]
        by_cases hv : xs[k] = v
        · subst hv
          refine ⟨l, ?_, ?_⟩
          · simp only [if_true, List.mem_cons, true_or, decide_true]
            rfl
          · rw [List.idxOf_cons_self]
            exact h
        · have hne : ¬some xs[k] = some v := fun hc => hv (Option.some.inj hc)
          obtain ⟨l1, hadv, h1⟩ := advance_ok h hn
          rw [Nat.min_eq_left hk] at h1
          obtain ⟨l2, hloop, h2⟩ := ih h1 (by omega)
          refine ⟨l2, ?_, ?_⟩
          · rw [if_neg hne, bind_of_ok _ hadv, hloop]
            simp only [List.mem_cons, Ne.symm hv, false_or]
          · rw [List.idxOf_cons, beq_false_of_ne hv, cond_false, ← Nat.add_assoc,
              Nat.add_right_comm]
            exact h2

/-- The loop of `check_list_apply` visits the rest of the list. -/
theorem applyLoop_ok {fuel : Nat} (h : l.Rep xs k) (hn : xs.length ≤ intMax)
    (hfuel : xs.length - k < fuel) :
    ∃ l', applyLoop fuel l = .ok ((xs.drop k).map some) l' ∧ l'.Rep xs xs.length := by
  induction fuel generalizing l k with
  | zero => omega
  | succ fuel ih =>
      have hpos := h.pos
      rw [applyLoop, bind_of_ok _ (atEnd_apply l)]
      by_cases hend : l.toRec.atEnd = true
      · have hk : xs.length ≤ k := h.atEnd_iff.mp hend
        rw [List.drop_eq_nil_of_le hk, show xs.length = k by omega]
        exact ⟨l, by rw [if_pos hend]; rfl, h⟩
      · have hk : k < xs.length := Nat.lt_of_not_le fun hle => hend (h.atEnd_iff.mpr hle)
        obtain ⟨l1, hadv, h1⟩ := advance_ok h hn
        rw [Nat.min_eq_left hk] at h1
        obtain ⟨l2, hloop, h2⟩ := ih h1 (by omega)
        refine ⟨l2, ?_, h2⟩
        rw [if_neg hend, bind_of_ok _ (val_apply h), bind_of_ok _ hadv, bind_of_ok _ hloop,
          List.getElem?_eq_getElem hk, List.drop_eq_getElem_cons hk]
        rfl

/-! ## runs of calls -/

/-- What holds of the fields of a list between two calls. -/
structure Consistent (l : List32 α) : Prop where
  block : l.data.length = l.maxElts.toNat
  nElts_le : l.nElts ≤ l.maxElts
  last : l.last.toInt = (l.nElts.toNat : Int) - 1
  current_iff : l.current = -1 ↔ l.nElts = 0
  current_range : l.nElts ≠ 0 → 0 ≤ l.current.toInt ∧ l.current.toInt ≤ l.last.toInt + 1

theorem Rep.consistent (h : l.Rep xs k) : l.Consistent := by
  have hn : l.nElts.toNat = xs.length := h.nElts
  have hlast : l.last.toInt = (l.nElts.toNat : Int) - 1 := h.last
  have hcur : l.current.toInt = if xs = [] then -1 else (k : Int) := h.current
  have hpos := h.pos
  have hzero : l.nElts = 0 ↔ xs = [] := by
    rw [← UInt32.toNat_inj, hn, UInt32.toNat_zero, List.length_eq_zero_iff]
  refine ⟨h.cap, UInt32.le_iff_toNat_le.mpr h.le_cap, hlast, ?_, fun hne => ?_⟩
  · rw [current_eq_neg_one_iff, hzero]
    change l.current.toInt = -1 ↔ _
    rw [hcur]
    split
    · next hnil => simp [hnil]
    · next hne => exact iff_of_false (by omega) hne
  · rw [if_neg fun hnil => hne (hzero.mpr hnil)] at hcur
    omega

variable [DecidableEq α]

/-- The list stands for the sequence. -/
def Refines (l : List32 α) (s : Sequence α) : Prop := l.Rep s.elems s.pos

/-- A call does what it is to do. -/
theorem exec_ok {fuel : Nat} (hfuel : intMax < fuel) {s : Sequence α} {op : ListOp α}
    (h : l.Refines s) (hs : s.elems.length ≤ intMax) (hstep : (s.step op).2.elems.length ≤ intMax) :
    ∃ l', exec fuel op l = .ok (s.step op).1 l' ∧ l'.Refines (s.step op).2 := by
  cases op with
  | create => exact ⟨List32.create, rfl, rep_create⟩
  | addFront v =>
      have hroom : s.elems.length < intMax := hstep
      obtain ⟨l', hadd, hrec⟩ := addFront_ok h hroom v
      refine ⟨l', bind_of_ok _ hadd, ?_⟩
      rw [Refines, Rep, hrec]
      exact ListRec.Rep.addFront h v
  | addEnd v =>
      have hroom : s.elems.length < intMax := by
        change (s.elems ++ [v]).length ≤ intMax at hstep
        rw [List.length_append, List.length_singleton] at hstep
        omega
      obtain ⟨l', hadd, hrec⟩ := addEnd_ok h hroom v
      refine ⟨l', bind_of_ok _ hadd, ?_⟩
      rw [Refines, Rep, hrec]
      exact ListRec.Rep.addEnd h v
  | front =>
      obtain ⟨l', hfront, hrec⟩ := front_ok l
      refine ⟨l', bind_of_ok _ hfront, ?_⟩
      rw [Refines, Rep, hrec]
      exact ListRec.Rep.front h
  | advance =>
      obtain ⟨l', hadv, hrep⟩ := advance_ok h hs
      exact ⟨l', bind_of_ok _ hadv, hrep⟩
  | val => exact ⟨l, bind_of_ok _ (val_apply h), h⟩
  | atEnd =>
      refine ⟨l, (bind_of_ok _ (atEnd_apply l)).trans ?_, h⟩
      have hend : l.toRec.atEnd = decide (s.pos = s.elems.length) := by
        have hpos := s.pos_le
        rw [Bool.eq_iff_iff, ListRec.Rep.atEnd_iff h, decide_eq_true_eq]
        omega
      rw [hend]
      rfl
  | contains v =>
      obtain ⟨l1, hfront, hrec⟩ := front_ok l
      have h1 : l1.Rep s.elems 0 := by
        rw [Rep, hrec]
        exact ListRec.Rep.front h
      have hlong : s.elems.length - 0 < fuel := by omega
      obtain ⟨l2, hloop, h2⟩ := containsLoop_ok v h1 hs hlong
      rw [List.drop_zero, Nat.zero_add] at h2
      refine ⟨l2, (bind_of_ok _ hfront).trans ((bind_of_ok _ hloop).trans ?_), h2⟩
      rw [List.drop_zero]
      rfl
  | apply =>
      obtain ⟨l1, hfront, hrec⟩ := front_ok l
      have h1 : l1.Rep s.elems 0 := by
        rw [Rep, hrec]
        exact ListRec.Rep.front h
      have hlong : s.elems.length - 0 < fuel := by omega
      obtain ⟨l2, hloop, h2⟩ := applyLoop_ok h1 hs hlong
      exact ⟨l2, (bind_of_ok _ hfront).trans (bind_of_ok _ hloop), h2⟩

/-- A sequence of calls does what it is to do. -/
theorem run_ok {fuel : Nat} (hfuel : intMax < fuel) {s : Sequence α} {ops : List (ListOp α)}
    (h : l.Refines s) (hops : s.Fits ops) :
    ∃ l', run fuel ops l = .ok (s.run ops).1 l' ∧ l'.Refines (s.run ops).2 := by
  induction ops generalizing l s with
  | nil => exact ⟨l, rfl, h⟩
  | cons op ops ih =>
      obtain ⟨l1, hexec, h1⟩ := exec_ok hfuel h hops.1 hops.2.length_le
      obtain ⟨l2, hrun, h2⟩ := ih h1 hops.2
      exact ⟨l2, (bind_of_ok _ hexec).trans (bind_of_ok _ hrun), h2⟩

/-- **The list refines a sequence with a position**: calls that keep the list at
no more than `INT_MAX` elements fault nowhere, answer as the sequence does, and
leave a list with consistent fields that holds the elements of the sequence,
its cursor at the position. -/
theorem check_list_refines {fuel : Nat} (hfuel : intMax < fuel) {ops : List (ListOp α)}
    (hops : Sequence.empty.Fits ops) :
    ∃ l, run fuel ops create = .ok (Sequence.empty.run ops).1 l ∧ l.Consistent ∧
      l.data.take l.nElts.toNat = (Sequence.empty.run ops).2.elems.map some ∧
      l.current.toInt = if (Sequence.empty.run ops).2.elems = [] then -1
        else ((Sequence.empty.run ops).2.pos : Int) := by
  obtain ⟨l, hrun, h⟩ := run_ok (l := create) (s := .empty) hfuel rep_create hops
  exact ⟨l, hrun, Rep.consistent h, h.data, h.current⟩

/-- Two elements, one at each end, and a walk over them. -/
theorem check_list_refines_two : ∃ l, run (intMax + 1)
      [.addEnd 1, .addFront 2, .advance, .val, .contains 3, .apply] create =
        .ok [.done, .done, .done, .val (some 1), .bool false, .visited [some 2, some 1]] l ∧
      l.Consistent := by
  have hfits : (Sequence.empty : Sequence Nat).Fits
      [.addEnd 1, .addFront 2, .advance, .val, .contains 3, .apply] := by decide
  obtain ⟨l, hrun, hcons, -⟩ := check_list_refines (Nat.lt_succ_self intMax) hfits
  exact ⟨l, hrun, hcons⟩

end List32

end LibCheck
