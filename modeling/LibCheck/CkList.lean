import LibCheck.Bytes
import LibCheck.Cursor

/-!
# LibCheck.CkList

The list of `check_list.c`: an array that grows by doubling, with its element
count, the index of the last element and a cursor stored in the list itself.

`ListRec` is `struct List` field by field, with every slot of the allocated
block; `Rep l xs k` says that it represents the sequence `xs` with the cursor
at position `k`, where `k = xs.length` is the position past the end.  Each
operation of the source is followed by the lemma that says what it does to
the represented sequence.  `CkList` is the type of the lists that represent
some sequence, so that a list with inconsistent fields cannot be built.
-/

namespace LibCheck

open Prog

/-- `struct List`.  The block `data` has `max_elts` slots, of which only the
first `n_elts` have been written. -/
structure ListRec (α : Type) where
  nElts : Nat
  maxElts : Nat
  current : Int
  last : Int
  data : List (Option α)

namespace ListRec

/-! ## the operations of check_list.c -/

/-- `check_list_create`. -/
def create : ListRec α where
  nElts := 0
  maxElts := 1
  data := [none]
  current := -1
  last := -1

/-- `maybe_grow`: the block is doubled when it is full. -/
def maybeGrow (l : ListRec α) : ListRec α :=
  if l.nElts ≥ l.maxElts then
    { l with maxElts := l.maxElts * 2, data := l.data ++ List.replicate l.maxElts none }
  else l

/-- `check_list_add_front`: the written slots are moved up by one. -/
def addFront (l : ListRec α) (val : α) : ListRec α :=
  let l := l.maybeGrow
  let moved := l.data.take 1 ++ l.data.take l.nElts ++ l.data.drop (l.nElts + 1)
  { l with
    last := l.last + 1
    nElts := l.nElts + 1
    current := 0
    data := moved.set 0 (some val) }

/-- `check_list_add_end`. -/
def addEnd (l : ListRec α) (val : α) : ListRec α :=
  let l := l.maybeGrow
  { l with
    last := l.last + 1
    nElts := l.nElts + 1
    current := l.last + 1
    data := l.data.set (l.last + 1).toNat (some val) }

/-- `check_list_at_end`. -/
def atEnd (l : ListRec α) : Bool := l.current = -1 ∨ l.current > l.last

/-- `check_list_front`. -/
def front (l : ListRec α) : ListRec α := if l.current = -1 then l else { l with current := 0 }

/-- `check_list_val`; `none` is the null pointer. -/
def val (l : ListRec α) : Option α :=
  if l.current = -1 ∨ l.current > l.last then none else (l.data[l.current.toNat]?).join

/-- `check_list_advance`. -/
def advance (l : ListRec α) : ListRec α :=
  if l.atEnd then l else { l with current := l.current + 1 }

/-! ## the represented sequence -/

/-- The list represents the sequence `xs` with its cursor at position `k`. -/
structure Rep (l : ListRec α) (xs : List α) (k : Nat) : Prop where
  nElts : l.nElts = xs.length
  cap : l.data.length = l.maxElts
  le_cap : l.nElts ≤ l.maxElts
  cap_pos : 0 < l.maxElts
  last : l.last = (l.nElts : Int) - 1
  current : l.current = if xs = [] then -1 else (k : Int)
  pos : k ≤ xs.length
  data : l.data.take l.nElts = xs.map some

variable {l : ListRec α} {xs : List α} {k : Nat}

theorem rep_create : (create : ListRec α).Rep [] 0 :=
  { nElts := rfl, cap := rfl, le_cap := Nat.zero_le _, cap_pos := Nat.one_pos, last := rfl,
    current := rfl, pos := Nat.zero_le _, data := rfl }

/-- Growing makes room for one more element and changes nothing else. -/
theorem Rep.maybeGrow (h : l.Rep xs k) :
    l.maybeGrow.Rep xs k ∧ l.maybeGrow.nElts < l.maybeGrow.maxElts := by
  have hcap := h.cap
  have hpos := h.cap_pos
  have hle := h.le_cap
  unfold ListRec.maybeGrow
  by_cases hfull : l.nElts ≥ l.maxElts
  · rw [if_pos hfull]
    refine ⟨⟨h.nElts, ?_, ?_, ?_, h.last, h.current, h.pos, ?_⟩, ?_⟩
    · simp only [List.length_append, List.length_replicate]
      omega
    · show l.nElts ≤ l.maxElts * 2
      omega
    · show 0 < l.maxElts * 2
      omega
    · show (l.data ++ _).take l.nElts = _
      rw [List.take_append_of_le_length (by omega)]
      exact h.data
    · show l.nElts < l.maxElts * 2
      omega
  · rw [if_neg hfull]
    exact ⟨h, by omega⟩

/-- `check_list_add_end` appends and puts the cursor on the new element. -/
theorem Rep.addEnd (h : l.Rep xs k) (v : α) : (l.addEnd v).Rep (xs ++ [v]) xs.length := by
  obtain ⟨hg, hroom⟩ := h.maybeGrow
  have hn := hg.nElts
  have hlast := hg.last
  have hcap := hg.cap
  have hidx : (l.maybeGrow.last + 1).toNat = xs.length := by omega
  refine ⟨?_, ?_, ?_, hg.cap_pos, ?_, ?_, ?_, ?_⟩
  · show l.maybeGrow.nElts + 1 = _
    simp only [List.length_append, List.length_cons, List.length_nil]
    omega
  · show (l.maybeGrow.data.set _ _).length = l.maybeGrow.maxElts
    rw [List.length_set, hcap]
  · show l.maybeGrow.nElts + 1 ≤ l.maybeGrow.maxElts
    omega
  · show l.maybeGrow.last + 1 = ((l.maybeGrow.nElts + 1 : Nat) : Int) - 1
    omega
  · show l.maybeGrow.last + 1 = _
    rw [if_neg (by simp)]
    omega
  · simp only [List.length_append, List.length_cons, List.length_nil]
    omega
  · show (l.maybeGrow.data.set _ _).take (l.maybeGrow.nElts + 1) = _
    rw [hidx, hn, List.take_succ_eq_append_getElem (by rw [List.length_set]; omega),
      List.take_set_of_le (Nat.le_refl _), List.getElem_set_self, ← hn, hg.data,
      List.map_append, List.map_cons, List.map_nil]

/-- `check_list_add_front` prepends and puts the cursor on the new element. -/
theorem Rep.addFront (h : l.Rep xs k) (v : α) : (l.addFront v).Rep (v :: xs) 0 := by
  obtain ⟨hg, hroom⟩ := h.maybeGrow
  have hn := hg.nElts
  have hlast := hg.last
  have hcap := hg.cap
  obtain ⟨d, ds, hdata⟩ : ∃ d ds, l.maybeGrow.data = d :: ds :=
    List.exists_cons_of_length_pos (by omega)
  have hmoved : (l.addFront v).data =
      some v :: (l.maybeGrow.data.take l.maybeGrow.nElts ++ l.maybeGrow.data.drop
        (l.maybeGrow.nElts + 1)) := by
    show (l.maybeGrow.data.take 1 ++ _ ++ _).set 0 _ = _
    rw [hdata]
    rfl
  refine ⟨?_, ?_, ?_, hg.cap_pos, ?_, ?_, Nat.zero_le _, ?_⟩
  · show l.maybeGrow.nElts + 1 = _
    rw [hn, List.length_cons]
  · show (l.addFront v).data.length = l.maybeGrow.maxElts
    rw [hmoved, List.length_cons, List.length_append, List.length_take, List.length_drop, hcap]
    omega
  · show l.maybeGrow.nElts + 1 ≤ l.maybeGrow.maxElts
    omega
  · show l.maybeGrow.last + 1 = ((l.maybeGrow.nElts + 1 : Nat) : Int) - 1
    omega
  · show (0 : Int) = _
    rw [if_neg (by simp)]
    rfl
  · show (l.addFront v).data.take (l.maybeGrow.nElts + 1) = _
    rw [hmoved, List.take_succ_cons, List.take_append_of_le_length (by
      rw [List.length_take, hcap]
      omega), List.take_take, Nat.min_self, hg.data, List.map_cons]

/-- The cursor is past the end exactly at position `xs.length`. -/
theorem Rep.atEnd_iff (h : l.Rep xs k) : l.atEnd = true ↔ xs.length ≤ k := by
  have hn := h.nElts
  have hlast := h.last
  have hcur := h.current
  have hpos := h.pos
  simp only [ListRec.atEnd, decide_eq_true_eq]
  cases xs with
  | nil =>
      rw [if_pos rfl] at hcur
      exact ⟨fun _ => Nat.zero_le _, fun _ => .inl hcur⟩
  | cons x xs =>
      rw [if_neg (by simp)] at hcur
      simp only [List.length_cons] at hn ⊢
      omega

/-- `check_list_val` reads the element under the cursor. -/
theorem Rep.val_eq (h : l.Rep xs k) : l.val = xs[k]? := by
  have hend := h.atEnd_iff
  simp only [ListRec.atEnd, decide_eq_true_eq] at hend
  unfold ListRec.val
  by_cases hle : xs.length ≤ k
  · rw [if_pos (hend.mpr hle), List.getElem?_eq_none hle]
  · rw [if_neg fun hc => hle (hend.mp hc)]
    have hlt : k < xs.length := Nat.lt_of_not_le hle
    have hne : xs ≠ [] := fun he => by rw [he] at hlt; exact Nat.not_lt_zero _ hlt
    have hcur : l.current.toNat = k := by
      rw [h.current, if_neg hne]
      exact Int.toNat_natCast k
    have hget : (l.data.take l.nElts)[k]? = some (some xs[k]) := by
      rw [h.data, List.getElem?_map, List.getElem?_eq_getElem hlt]
      rfl
    rw [List.getElem?_take_of_lt (by rw [h.nElts]; exact hlt)] at hget
    rw [hcur, hget, List.getElem?_eq_getElem hlt]
    rfl

/-- `check_list_front` puts the cursor on the first element. -/
theorem Rep.front (h : l.Rep xs k) : l.front.Rep xs 0 := by
  have hcur := h.current
  unfold ListRec.front
  by_cases hnil : xs = []
  · rw [if_pos hnil] at hcur
    rw [if_pos hcur]
    exact { h with current := by rw [hcur, if_pos hnil], pos := Nat.zero_le _ }
  · rw [if_neg hnil] at hcur
    rw [if_neg (by omega)]
    exact
      { nElts := h.nElts, cap := h.cap, le_cap := h.le_cap, cap_pos := h.cap_pos,
        last := h.last, current := by rw [if_neg hnil]; rfl, pos := Nat.zero_le _,
        data := h.data }

/-- `check_list_advance` moves the cursor on, up to the position past the
end. -/
theorem Rep.advance (h : l.Rep xs k) (hlt : k < xs.length) : l.advance.Rep xs (k + 1) := by
  have hne : xs ≠ [] := fun he => by rw [he] at hlt; exact Nat.not_lt_zero _ hlt
  have hcur := h.current
  rw [if_neg hne] at hcur
  unfold ListRec.advance
  rw [if_neg fun hend => Nat.not_le.mpr hlt (h.atEnd_iff.mp hend)]
  exact
    { nElts := h.nElts, cap := h.cap, le_cap := h.le_cap, cap_pos := h.cap_pos, last := h.last,
      current := by rw [if_neg hne]; show l.current + 1 = _; omega, pos := hlt,
      data := h.data }

/-- At the end `check_list_advance` does nothing. -/
theorem advance_of_atEnd (h : l.atEnd = true) : l.advance = l := if_pos h

/-- The sequence of a list, read off its slots. -/
def elems (l : ListRec α) : List α := (l.data.take l.nElts).filterMap id

/-- The cursor position of a list. -/
def position (l : ListRec α) : Nat := l.current.toNat

theorem Rep.elems_eq (h : l.Rep xs k) : l.elems = xs := by
  rw [ListRec.elems, h.data, List.filterMap_map]
  exact List.filterMap_some

/-- A representation is determined by the list, except that the position of an
empty list is always zero. -/
theorem Rep.position_eq (h : l.Rep xs k) : l.position = k := by
  have hpos := h.pos
  rw [position, h.current]
  split
  · next hnil => subst hnil; simp only [List.length_nil] at hpos; omega
  · exact Int.toNat_natCast k

end ListRec

/-! ## consistent lists -/

/-- A `List *` whose fields are consistent. -/
def CkList (α : Type) : Type := { l : ListRec α // ∃ xs k, l.Rep xs k }

namespace CkList

/-- The elements, in order. -/
def elems (l : CkList α) : List α := l.1.elems

/-- The position of the cursor. -/
def position (l : CkList α) : Nat := l.1.position

theorem rep (l : CkList α) : l.1.Rep l.elems l.position := by
  obtain ⟨xs, k, h⟩ := l.2
  rw [elems, position, h.elems_eq, h.position_eq]
  exact h

/-- `check_list_create`. -/
def create : CkList α := ⟨.create, [], 0, ListRec.rep_create⟩

/-- `check_list_add_end`. -/
def addEnd (l : CkList α) (v : α) : CkList α := ⟨l.1.addEnd v, _, _, l.rep.addEnd v⟩

/-- `check_list_add_front`. -/
def addFront (l : CkList α) (v : α) : CkList α := ⟨l.1.addFront v, _, _, l.rep.addFront v⟩

/-- `check_list_front`. -/
def front (l : CkList α) : CkList α := ⟨l.1.front, _, _, l.rep.front⟩

/-- `check_list_advance`. -/
def advance (l : CkList α) : CkList α :=
  ⟨l.1.advance, by
    by_cases h : l.1.atEnd = true
    · rw [ListRec.advance_of_atEnd h]
      exact ⟨_, _, l.rep⟩
    · exact ⟨_, _, l.rep.advance (Nat.lt_of_not_le fun hle => h (l.rep.atEnd_iff.mpr hle))⟩⟩

@[simp] theorem elems_create : (create : CkList α).elems = [] := rfl

@[simp] theorem elems_addEnd (l : CkList α) (v : α) : (l.addEnd v).elems = l.elems ++ [v] :=
  (l.rep.addEnd v).elems_eq

@[simp] theorem elems_addFront (l : CkList α) (v : α) : (l.addFront v).elems = v :: l.elems :=
  (l.rep.addFront v).elems_eq

@[simp] theorem elems_front (l : CkList α) : l.front.elems = l.elems := l.rep.front.elems_eq

@[simp] theorem elems_advance (l : CkList α) : l.advance.elems = l.elems := by
  by_cases h : l.1.atEnd = true
  · exact congrArg ListRec.elems (ListRec.advance_of_atEnd h)
  · exact (l.rep.advance (Nat.lt_of_not_le fun hle => h (l.rep.atEnd_iff.mpr hle))).elems_eq

/-- The position that `check_list_advance` moves the cursor to. -/
def next (l : CkList α) : Nat := min (l.position + 1) l.elems.length

theorem rep_advance (l : CkList α) : l.advance.1.Rep l.elems l.next := by
  by_cases h : l.1.atEnd = true
  · have hend := l.rep.atEnd_iff.mp h
    have hpos := l.rep.pos
    have hnext : l.next = l.position := by
      rw [next]
      omega
    show l.1.advance.Rep _ _
    rw [hnext, ListRec.advance_of_atEnd h]
    exact l.rep
  · have hlt : l.position < l.elems.length :=
      Nat.lt_of_not_le fun hle => h (l.rep.atEnd_iff.mpr hle)
    have hnext : l.next = l.position + 1 := Nat.min_eq_left hlt
    rw [hnext]
    exact l.rep.advance hlt

theorem next_eq {l : CkList α} {xs : List α} {k : Nat} (h : l.1.Rep xs k) (hk : k < xs.length) :
    l.next = k + 1 := by
  rw [next, position, h.position_eq, elems, h.elems_eq, Nat.min_eq_left hk]

/-- A list built by appending. -/
def ofList (xs : List α) : CkList α := xs.foldl addEnd create

@[simp] theorem elems_ofList (xs : List α) : (ofList xs).elems = xs := by
  have hfold : ∀ (l : CkList α) (ys : List α), (ys.foldl addEnd l).elems = l.elems ++ ys := by
    intro l ys
    induction ys generalizing l with
    | nil => rw [List.foldl_nil, List.append_nil]
    | cons y ys ih =>
        rw [List.foldl_cons, ih, elems_addEnd, List.append_assoc, List.singleton_append]
  rw [ofList, hfold, elems_create, List.nil_append]

/-! ## traversal -/

/-- The cursor of a list that lives at a place of the state. -/
def cursor (get : σ → CkList α) (set : CkList α → σ → σ) : Cursor σ α where
  rewind s := set (get s).front s
  atEnd s := (get s).1.atEnd
  val s := (get s).1.val
  advance s := set (get s).advance s
  size s := (get s).1.nElts

/-- The traversal functions of `check_list.c` satisfy the laws of a cursor,
at any place of the state that can be read back after it was written. -/
theorem cursor_laws {get : σ → CkList α} {set : CkList α → σ → σ}
    (hgs : ∀ l s, get (set l s) = l) :
    Cursor.Laws (cursor get set) (fun xs s => (get s).elems = xs)
      (fun xs k s => (get s).1.Rep xs k) where
  rewind h := by
    show (get (set _ _)).1.Rep _ 0
    rw [hgs, ← h]
    exact (rep _).front
  size h := h.nElts
  atEnd h := h.atEnd_iff
  val h := h.val_eq
  advance h hlt := by
    show (get (set _ _)).1.Rep _ _
    rw [hgs]
    exact h.advance hlt

end CkList

end LibCheck
