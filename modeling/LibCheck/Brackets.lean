import Mathlib.Data.List.Induction

/-!
# LibCheck.Brackets

Histories of bracketed levels, over any kind of things.

A level is entered and left; while it is the innermost one, things are put on it
and taken from it, all of them at once.  What is on a level is read off the
history alone, by going backwards from its end (`pending`).

* `depth` — how many levels are open.
* `WellNested` — things are put and taken, and levels are left, on open levels
  only.
* `pending_append` — a complete bracket changes nothing for the levels around it.
-/

namespace LibCheck

/-- Every element of a list stands in the relation to the ones before it. -/
def Throughout (P : List ε → ε → Prop) (es : List ε) : Prop :=
  ∀ front e rest, es = front ++ e :: rest → P front e

theorem throughout_nil (P : List ε → ε → Prop) : Throughout P [] := by
  intro front e rest h
  simp at h

/-- One more element. -/
theorem throughout_concat {P : List ε → ε → Prop} {es : List ε} {e : ε} :
    Throughout P (es ++ [e]) ↔ Throughout P es ∧ P es e := by
  constructor
  · intro h
    exact ⟨fun front d rest hes => h front d (rest ++ [e]) (by simp [hes]), h es e [] rfl⟩
  · rintro ⟨hes, he⟩ front d rest h
    rcases List.eq_nil_or_concat rest with rfl | ⟨rest, d', rfl⟩
    · obtain ⟨rfl, h⟩ := List.append_inj' h rfl
      obtain rfl : e = d := by simpa using h
      exact he
    · rw [List.concat_eq_append, ← List.cons_append, ← List.append_assoc] at h
      exact hes front d rest (List.append_inj' h rfl).1

theorem Throughout.of_append {P : List ε → ε → Prop} {es es' : List ε}
    (h : Throughout P (es ++ es')) : Throughout P es :=
  fun front e rest hes => h front e (rest ++ es') (by simp [hes])

theorem throughout_iff {P : List ε → ε → Prop} {es : List ε} :
    Throughout P es ↔ ∀ i : Fin es.length, P (es.take i) es[i] := by
  constructor
  · intro h i
    refine h _ _ (es.drop (i + 1)) ?_
    simp
  · rintro h front e rest rfl
    simpa using h ⟨front.length, by simp⟩

instance {P : List ε → ε → Prop} [∀ front e, Decidable (P front e)] (es : List ε) :
    Decidable (Throughout P es) := decidable_of_iff _ throughout_iff.symm

/-- One event of a history. -/
inductive Bracket (α κ : Type) where
  | enter
  | put (a : α)
  | take (k : κ)
  | leave
deriving DecidableEq, Repr

namespace Bracket

variable {α κ : Type}

/-- The number of open levels; the last event comes first. -/
def depthBack : List (Bracket α κ) → Nat
  | [] => 0
  | .enter :: es => depthBack es + 1
  | .put _ :: es => depthBack es
  | .take _ :: es => depthBack es
  | .leave :: es => depthBack es - 1

/-- What was put since the last `take`, or else since the level was entered, on
the level that is reached by leaving `k` levels; the last event comes first. -/
def pendingBack : Nat → List (Bracket α κ) → List α
  | _, [] => []
  | 0, .enter :: _ => []
  | k + 1, .enter :: es => pendingBack k es
  | 0, .put a :: es => pendingBack 0 es ++ [a]
  | k + 1, .put _ :: es => pendingBack (k + 1) es
  | 0, .take _ :: _ => []
  | k + 1, .take _ :: es => pendingBack (k + 1) es
  | k, .leave :: es => pendingBack (k + 1) es

/-- The number of open levels after a history. -/
def depth (es : List (Bracket α κ)) : Nat := depthBack es.reverse

/-- What is on the `k`-th level from the inside after a history. -/
def pending (k : Nat) (es : List (Bracket α κ)) : List α := pendingBack k es.reverse

/-- Nothing but `enter` happens without an open level. -/
def WellNested (es : List (Bracket α κ)) : Prop :=
  Throughout (fun front e => e ≠ .enter → 0 < depth front) es

instance [DecidableEq α] [DecidableEq κ] (es : List (Bracket α κ)) : Decidable (WellNested es) :=
  inferInstanceAs (Decidable (Throughout _ es))

/-! ## one more event -/

@[simp] theorem depth_nil : depth ([] : List (Bracket α κ)) = 0 := rfl

@[simp] theorem depth_enter (es : List (Bracket α κ)) : depth (es ++ [.enter]) = depth es + 1 := by
  simp [depth, depthBack]

@[simp] theorem depth_put (es : List (Bracket α κ)) (a : α) :
  depth (es ++ [.put a]) = depth es := by
  simp [depth, depthBack]

@[simp] theorem depth_take (es : List (Bracket α κ)) (k : κ) :
    depth (es ++ [.take k]) = depth es := by
  simp [depth, depthBack]

@[simp] theorem depth_leave (es : List (Bracket α κ)) : depth (es ++ [.leave]) = depth es - 1 := by
  simp [depth, depthBack]

@[simp] theorem pending_enter (es : List (Bracket α κ)) : pending 0 (es ++ [.enter]) = [] := by
  simp [pending, pendingBack]

@[simp] theorem pending_enter_succ (k : Nat) (es : List (Bracket α κ)) :
    pending (k + 1) (es ++ [.enter]) = pending k es := by
  simp [pending, pendingBack]

@[simp] theorem pending_put (es : List (Bracket α κ)) (a : α) :
    pending 0 (es ++ [.put a]) = pending 0 es ++ [a] := by
  simp [pending, pendingBack]

@[simp] theorem pending_put_succ (k : Nat) (es : List (Bracket α κ)) (a : α) :
    pending (k + 1) (es ++ [.put a]) = pending (k + 1) es := by
  simp [pending, pendingBack]

@[simp] theorem pending_take (es : List (Bracket α κ)) (k : κ) :
  pending 0 (es ++ [.take k]) = [] := by
  simp [pending, pendingBack]

@[simp] theorem pending_take_succ (n : Nat) (es : List (Bracket α κ)) (k : κ) :
    pending (n + 1) (es ++ [.take k]) = pending (n + 1) es := by
  simp [pending, pendingBack]

@[simp] theorem pending_leave (k : Nat) (es : List (Bracket α κ)) :
    pending k (es ++ [.leave]) = pending (k + 1) es := by
  simp [pending, pendingBack]

/-- What is on a level was put there. -/
theorem put_mem_of_mem_pendingBack {a : α} {k : Nat} {es : List (Bracket α κ)}
    (h : a ∈ pendingBack k es) : .put a ∈ es := by
  fun_induction pendingBack k es with
  | case1 => simp at h
  | case2 => simp at h
  | case3 k es ih => exact List.mem_cons_of_mem _ (ih h)
  | case4 b es ih =>
      rcases List.mem_append.mp h with h | h
      · exact List.mem_cons_of_mem _ (ih h)
      · simp [List.mem_singleton.mp h]
  | case5 k b es ih => exact List.mem_cons_of_mem _ (ih h)
  | case6 => simp at h
  | case7 k n es ih => exact List.mem_cons_of_mem _ (ih h)
  | case8 k es ih => exact List.mem_cons_of_mem _ (ih h)

theorem put_mem_of_mem_pending {a : α} {k : Nat} {es : List (Bracket α κ)} (h : a ∈ pending k es) :
    .put a ∈ es := List.mem_reverse.mp (put_mem_of_mem_pendingBack h)

/-- The last event of a well nested history. -/
theorem wellNested_concat {es : List (Bracket α κ)} {e : Bracket α κ} :
    WellNested (es ++ [e]) ↔ WellNested es ∧ (e ≠ .enter → 0 < depth es) := throughout_concat

/-! ## complete brackets -/

/-- What a bracket that is closed again leaves behind, and what is seen through
one that is still open. -/
theorem pending_append {block : List (Bracket α κ)} (h : WellNested block)
    (es : List (Bracket α κ)) :
    depth (es ++ block) = depth es + depth block ∧
      ∀ k, pending (k + depth block) (es ++ block) = pending k es := by
  induction block using List.reverseRecOn with
  | nil => simp
  | append_singleton block e ih =>
      obtain ⟨hblock, he⟩ := wellNested_concat.mp h
      obtain ⟨hdepth, hpending⟩ := ih hblock
      rw [← List.append_assoc]
      cases e with
      | enter =>
          rw [depth_enter, depth_enter, hdepth]
          refine ⟨by omega, fun k => ?_⟩
          rw [← Nat.add_assoc, pending_enter_succ, hpending]
      | put a =>
          -- the innermost level belongs to the block
          have hpos := he (by simp)
          obtain ⟨d, hd⟩ : ∃ d, depth block = d + 1 := ⟨depth block - 1, by omega⟩
          rw [depth_put, depth_put]
          refine ⟨hdepth, fun k => ?_⟩
          rw [← hpending k, hd, ← Nat.add_assoc, pending_put_succ]
      | take n =>
          have hpos := he (by simp)
          obtain ⟨d, hd⟩ : ∃ d, depth block = d + 1 := ⟨depth block - 1, by omega⟩
          rw [depth_take, depth_take]
          refine ⟨hdepth, fun k => ?_⟩
          rw [← hpending k, hd, ← Nat.add_assoc, pending_take_succ]
      | leave =>
          have hpos := he (by simp)
          rw [depth_leave, depth_leave]
          refine ⟨by omega, fun k => ?_⟩
          rw [pending_leave, ← hpending k]
          congr 1
          omega

end Bracket

end LibCheck
