import Mathlib.Data.List.Induction

/-!
# LibCheck.Interleave

Interleavings of the sequences of several senders: a list of elements, each
tagged with its sender, in which every sender's elements come in the order of
its own sequence.  A sender may be cut short.
-/

namespace LibCheck

variable {σ α : Type} [DecidableEq σ]

/-- The elements of one sender. -/
def own (k : σ) (stream : List (σ × α)) : List α :=
  (stream.filter fun q => q.1 = k).map Prod.snd

@[simp] theorem own_nil (k : σ) : own k ([] : List (σ × α)) = [] := rfl

@[simp] theorem own_append (k : σ) (s t : List (σ × α)) : own k (s ++ t) = own k s ++ own k t := by
  simp [own]

@[simp] theorem own_cons_self (k : σ) (a : α) (s : List (σ × α)) :
    own k ((k, a) :: s) = a :: own k s := by
  simp [own]

theorem own_cons_of_ne {j k : σ} (h : j ≠ k) (a : α) (s : List (σ × α)) :
    own k ((j, a) :: s) = own k s := by
  simp [own, h]

theorem mem_of_mem_own {k : σ} {stream : List (σ × α)} {a : α} (h : a ∈ own k stream) :
    a ∈ stream.map Prod.snd :=
  (List.filter_sublist.map Prod.snd).subset h

/-- The stream is an interleaving of the sequences, or of front parts of them. -/
def Interleaves (seqs : σ → List α) (stream : List (σ × α)) : Prop :=
  ∀ k, own k stream <+: seqs k

/-- Every element is one of its sender's. -/
theorem Interleaves.mem {seqs : σ → List α} {stream : List (σ × α)} (h : Interleaves seqs stream)
    {q : σ × α} (hq : q ∈ stream) : q.2 ∈ seqs q.1 := by
  refine (h q.1).subset ?_
  simp only [own, List.mem_map, List.mem_filter, decide_eq_true_eq]
  exact ⟨q, ⟨hq, rfl⟩, rfl⟩

/-- What a sender has sent up to an element. -/
theorem Interleaves.own_before {seqs : σ → List α} {pre post : List (σ × α)} {k : σ} {a : α}
    (h : Interleaves seqs (pre ++ (k, a) :: post)) : own k pre ++ [a] <+: seqs k := by
  have hk := h k
  rw [own_append, own_cons_self] at hk
  refine List.IsPrefix.trans ?_ hk
  exact ⟨own k post, by simp⟩

/-- The last element of a sender, with what the others sent after it. -/
theorem exists_last_own {stream : List (σ × α)} {k : σ} {xs : List α} {a : α}
    (h : own k stream = xs ++ [a]) :
    ∃ front between, stream = front ++ (k, a) :: between ∧ own k between = [] := by
  induction stream using List.reverseRecOn with
  | nil => simp at h
  | append_singleton stream q ih =>
      obtain ⟨j, b⟩ := q
      by_cases hj : j = k
      · subst hj
        rw [own_append, own_cons_self, own_nil] at h
        obtain ⟨-, hab⟩ := List.append_inj' h rfl
        cases hab
        exact ⟨stream, [], rfl, rfl⟩
      · rw [own_append, own_cons_of_ne hj, own_nil, List.append_nil] at h
        obtain ⟨front, between, rfl, hbetween⟩ := ih h
        refine ⟨front, between ++ [(j, b)], by simp, ?_⟩
        rw [own_append, own_cons_of_ne hj, hbetween]
        rfl

end LibCheck
