/-!
# LibCheck.Prog

Programs over a state that may stop abnormally (`EStateM`), and relations on
them that are proved by following a program's structure:

* `Sim R x y` — `x` and `y` run in lockstep: started in states related by
  `R`, they both return the same value or both stop for the same reason, in
  related states;
* `Maintains I E x` — `x` keeps the invariant `I` and stops only as `E` says;
* `Leads I J E x` — from a state with `I`, a normal return of `x` is as `J` says,
  and an abnormal stop as `E` says;
* `Unless e x y` — `x` does what `y` does, unless it stops for the reason `e`;
* `Appends I E v os x` — `x` appends `os` to a list that the state holds, or a
  part of it from its beginning where it is stopped;
* `Does I P ks x` — a normal return of `x` is related by `P` to its start, at
  the list `ks` of things done;
* `Walks I P E ks x` — like `Does`, and a stop is related to the start by `E`;
* `Keeps v x` — a normal return of `x` leaves the view `v` of the state as it
  was, a special case of `Maintains`.

Each has one rule per way of building a program.  Nothing here is about a
particular program; the module depends only on the Lean 4 core library.
-/

namespace LibCheck.Prog

open EStateM (Result)

variable {ε σ τ α β γ : Type}

/-! ## reading and updating the state -/

/-- Read a view of the state. -/
def read (p : σ → α) : EStateM ε σ α := fun s => .ok (p s) s

/-- Change the state. -/
def update (f : σ → σ) : EStateM ε σ Unit := fun s => .ok () (f s)

@[simp] theorem read_apply (p : σ → α) (s : σ) : (read p : EStateM ε σ α) s = .ok (p s) s := rfl

@[simp] theorem update_apply (f : σ → σ) (s : σ) :
    (update f : EStateM ε σ Unit) s = .ok () (f s) := rfl

@[simp] theorem pure_apply (a : α) (s : σ) : (pure a : EStateM ε σ α) s = .ok a s := rfl

@[simp] theorem throw_apply (e : ε) (s : σ) :
    (throw e : EStateM ε σ α) s = .error e s := rfl

/-! ## sequencing -/

theorem bind_apply (x : EStateM ε σ α) (f : α → EStateM ε σ β) (s : σ) :
    (x >>= f) s = match x s with
      | .ok a s' => f a s'
      | .error e s' => .error e s' := rfl

theorem bind_of_ok {x : EStateM ε σ α} (f : α → EStateM ε σ β) (h : x s = .ok a s') :
    (x >>= f) s = f a s' := by
  rw [bind_apply, h]

theorem bind_of_error {x : EStateM ε σ α} (f : α → EStateM ε σ β) (h : x s = .error e s') :
    (x >>= f) s = .error e s' := by
  rw [bind_apply, h]

theorem bind_congr_left {x y : EStateM ε σ α} (f : α → EStateM ε σ β) {s : σ} (h : x s = y s) :
    (x >>= f) s = (y >>= f) s := by
  rw [bind_apply, bind_apply, h]

theorem read_bind (p : σ → α) (f : α → EStateM ε σ β) (s : σ) : (read p >>= f) s = f (p s) s := rfl

theorem update_bind (g : σ → σ) (f : Unit → EStateM ε σ β) (s : σ) :
    (update g >>= f) s = f () (g s) := rfl

/-- A sequence that returns has returned from both of its parts. -/
theorem bind_eq_ok {x : EStateM ε σ α} {f : α → EStateM ε σ β} :
    (x >>= f) s = .ok b s'' ↔ ∃ a s', x s = .ok a s' ∧ f a s' = .ok b s'' := by
  rw [bind_apply]
  constructor
  · intro h
    cases hx : x s with
    | ok a s' => rw [hx] at h; exact ⟨a, s', rfl, h⟩
    | error e s' => rw [hx] at h; cases h
  · rintro ⟨a, s', hx, hf⟩
    rw [hx]
    exact hf

/-- A sequence that stops has stopped in one of its parts. -/
theorem bind_eq_error {x : EStateM ε σ α} {f : α → EStateM ε σ β} :
    (x >>= f) s = .error e s'' ↔
      x s = .error e s'' ∨ ∃ a s', x s = .ok a s' ∧ f a s' = .error e s'' := by
  rw [bind_apply]
  cases x s <;> simp [and_assoc]

/-- The state a program ends in, one way or the other. -/
def endState : Result ε σ α → σ
  | .ok _ s => s
  | .error _ s => s

/-- The program changes what `v` shows of the state. -/
def Changes (v : σ → γ) (x : EStateM ε σ α) (s : σ) : Prop := v (endState (x s)) ≠ v s

/-- In a sequence, the first part changes it or the second. -/
theorem Changes.of_bind {v : σ → γ} {x : EStateM ε σ α} {f : α → EStateM ε σ β} {s : σ}
    (h : Changes v (x >>= f) s) :
    Changes v x s ∨ ∃ a s', x s = .ok a s' ∧ v s' = v s ∧ Changes v (f a) s' := by
  rw [Changes, bind_apply] at h
  cases hx : x s with
  | error e s' =>
      rw [hx] at h
      exact .inl (by rw [Changes, hx]; exact h)
  | ok a s' =>
      rw [hx] at h
      by_cases hv : v s' = v s
      · exact .inr ⟨a, s', rfl, hv, by rw [Changes, hv]; exact h⟩
      · exact .inl (by rw [Changes, hx]; exact hv)

/-- The value a program returns and the state it returns in. -/
def returned : Result ε σ α → Option (α × σ)
  | .ok a s => some (a, s)
  | .error _ _ => none

theorem returned_eq_some {r : Result ε σ α} {p : α × σ} : returned r = some p ↔
    r = .ok p.1 p.2 := by
  cases r with
  | ok a s' => simp [returned, Prod.ext_iff]
  | error e s' => simp [returned]

/-- What is computed from the outcome of a program that returns. -/
theorem ok_of_returned {r : Result ε σ α} {p : α × σ → γ} {c : γ}
    (h : (returned r).map p = some c) : ∃ a s', r = .ok a s' ∧ p (a, s') = c := by
  cases r with
  | ok a s' => exact ⟨a, s', rfl, Option.some.inj h⟩
  | error e s' => cases h

/-- The reason for which a program stops and the state it stops in. -/
def stopped : Result ε σ α → Option (ε × σ)
  | .ok _ _ => none
  | .error e s => some (e, s)

/-- What is computed from the outcome of a program that stops. -/
theorem error_of_stopped {r : Result ε σ α} {p : ε × σ → γ} {c : γ}
    (h : (stopped r).map p = some c) : ∃ e s', r = .error e s' ∧ p (e, s') = c := by
  cases r with
  | ok a s' => cases h
  | error e s' => exact ⟨e, s', rfl, Option.some.inj h⟩

/-! ## lockstep simulation -/

/-- Two outcomes agree: both return the same value or both stop for the same
reason, in related states. -/
inductive Agree (R : σ → τ → Prop) : Result ε σ α → Result ε τ α → Prop where
  | ok (a : α) {s : σ} {t : τ} (h : R s t) : Agree R (.ok a s) (.ok a t)
  | error (e : ε) {s : σ} {t : τ} (h : R s t) : Agree R (.error e s) (.error e t)

/-- Lockstep simulation of `x` by `y` under the state relation `R`. -/
def Sim (R : σ → τ → Prop) (x : EStateM ε σ α) (y : EStateM ε τ α) : Prop :=
  ∀ s t, R s t → Agree R (x s) (y t)

namespace Sim

variable {R : σ → τ → Prop}

protected theorem pure (a : α) : Sim R (pure a : EStateM ε σ α) (pure a) :=
  fun _ _ h => .ok a h

protected theorem throw (e : ε) : Sim R (throw e : EStateM ε σ α) (throw e) :=
  fun _ _ h => .error e h

protected theorem read {p : σ → α} {q : τ → α} (h : ∀ s t, R s t → p s = q t) :
    Sim R (read p : EStateM ε σ α) (read q) := by
  intro s t hst
  rw [read_apply, read_apply, h s t hst]
  exact .ok _ hst

protected theorem update {f : σ → σ} {g : τ → τ} (h : ∀ s t, R s t → R (f s) (g t)) :
    Sim R (update f : EStateM ε σ Unit) (update g) :=
  fun s t hst => .ok () (h s t hst)

protected theorem bind {x : EStateM ε σ α} {y : EStateM ε τ α} {f : α → EStateM ε σ β}
    {g : α → EStateM ε τ β} (hx : Sim R x y) (hf : ∀ a, Sim R (f a) (g a)) :
    Sim R (x >>= f) (y >>= g) := by
  intro s t hst
  have hxy := hx s t hst
  rw [bind_apply, bind_apply]
  generalize x s = rx, y t = ry at hxy
  cases hxy with
  | ok a h => exact hf a _ _ h
  | error e h => exact .error e h

protected theorem ite {c : Prop} [Decidable c] {x x' : EStateM ε σ α} {y y' : EStateM ε τ α}
    (h : Sim R x y) (h' : Sim R x' y') :
    Sim R (if c then x else x') (if c then y else y') := by
  by_cases hc : c
  · rw [if_pos hc, if_pos hc]
    exact h
  · rw [if_neg hc, if_neg hc]
    exact h'

/-- A normal return on the left is one on the right. -/
theorem of_ok {x : EStateM ε σ α} {y : EStateM ε τ α} (h : Sim R x y) (hst : R s t)
    (hx : x s = .ok a s') : ∃ t', y t = .ok a t' ∧ R s' t' := by
  have hxy := h s t hst
  rw [hx] at hxy
  generalize y t = ry at hxy
  cases hxy with
  | ok _ h' => exact ⟨_, rfl, h'⟩

/-- A stop on the left is one on the right. -/
theorem of_error {x : EStateM ε σ α} {y : EStateM ε τ α} (h : Sim R x y) (hst : R s t)
    (hx : x s = .error e s') : ∃ t', y t = .error e t' ∧ R s' t' := by
  have hxy := h s t hst
  rw [hx] at hxy
  generalize y t = ry at hxy
  cases hxy with
  | error _ h' => exact ⟨_, rfl, h'⟩

/-- A normal return on the right is one on the left. -/
theorem to_ok {x : EStateM ε σ α} {y : EStateM ε τ α} (h : Sim R x y) (hst : R s t)
    (hy : y t = .ok a t') : ∃ s', x s = .ok a s' ∧ R s' t' := by
  have hxy := h s t hst
  rw [hy] at hxy
  generalize x s = rx at hxy
  cases hxy with
  | ok _ h' => exact ⟨_, rfl, h'⟩

/-- A stop on the right is one on the left. -/
theorem to_error {x : EStateM ε σ α} {y : EStateM ε τ α} (h : Sim R x y) (hst : R s t)
    (hy : y t = .error e t') : ∃ s', x s = .error e s' ∧ R s' t' := by
  have hxy := h s t hst
  rw [hy] at hxy
  generalize x s = rx at hxy
  cases hxy with
  | error _ h' => exact ⟨_, rfl, h'⟩

/-- Wherever the programs end, their states are related. -/
theorem endState {x : EStateM ε σ α} {y : EStateM ε τ α} (h : Sim R x y) (hst : R s t) :
    R (Prog.endState (x s)) (Prog.endState (y t)) := by
  have hxy := h s t hst
  generalize x s = rx, y t = ry at hxy
  cases hxy with
  | ok _ h' => exact h'
  | error _ h' => exact h'

/-- What one side changes is changed by the other. -/
theorem changes {x : EStateM ε σ α} {y : EStateM ε τ α} {v : σ → γ} {w : τ → γ} (h : Sim R x y)
    (hvw : ∀ s t, R s t → v s = w t) (hst : R s t) (hx : Changes v x s) : Changes w y t := by
  have hxy := h s t hst
  rw [Changes] at hx ⊢
  generalize x s = rx, y t = ry at hxy hx
  cases hxy with
  | ok a h' =>
      rw [← hvw _ _ hst]
      exact fun he => hx ((hvw _ _ h').trans he)
  | error e h' =>
      rw [← hvw _ _ hst]
      exact fun he => hx ((hvw _ _ h').trans he)

end Sim

/-! ## invariants -/

/-- Started in a state with `I`, a normal return of `x` is in a state with `I`
again, and an abnormal stop is as `E` says. -/
def Maintains (I : σ → Prop) (E : ε → σ → Prop) (x : EStateM ε σ α) : Prop :=
  ∀ s, I s → match x s with
    | .ok _ s' => I s'
    | .error e s' => E e s'

namespace Maintains

variable {I : σ → Prop} {E : ε → σ → Prop}

protected theorem pure (a : α) : Maintains I E (pure a : EStateM ε σ α) := fun _ h => h

protected theorem throw {e : ε} (h : ∀ s, I s → E e s) :
    Maintains I E (throw e : EStateM ε σ α) := h

protected theorem read (p : σ → α) : Maintains I E (read p : EStateM ε σ α) := fun _ h => h

protected theorem update {f : σ → σ} (h : ∀ s, I s → I (f s)) :
    Maintains I E (update f : EStateM ε σ Unit) := h

protected theorem bind {x : EStateM ε σ α} {f : α → EStateM ε σ β} (hx : Maintains I E x)
    (hf : ∀ a, Maintains I E (f a)) : Maintains I E (x >>= f) := by
  intro s hs
  have h := hx s hs
  rw [bind_apply]
  cases hxs : x s with
  | ok a s' => rw [hxs] at h; exact hf a s' h
  | error e s' => rw [hxs] at h; exact h

protected theorem ite {c : Prop} [Decidable c] {x y : EStateM ε σ α} (hx : Maintains I E x)
    (hy : Maintains I E y) : Maintains I E (if c then x else y) := by
  by_cases hc : c
  · rw [if_pos hc]
    exact hx
  · rw [if_neg hc]
    exact hy

/-- A value read from the state may be used with what the state says of it. -/
theorem bind_read {p : σ → α} {f : α → EStateM ε σ β}
    (hf : ∀ s, I s → match f (p s) s with
      | .ok _ s' => I s'
      | .error e s' => E e s') : Maintains I E (read p >>= f) := hf

theorem of_ok {x : EStateM ε σ α} (h : Maintains I E x) (hs : I s) (hx : x s = .ok a s') :
    I s' := by
  have hI := h s hs
  rw [hx] at hI
  exact hI

theorem of_error {x : EStateM ε σ α} (h : Maintains I E x) (hs : I s)
    (hx : x s = .error e s') : E e s' := by
  have hE := h s hs
  rw [hx] at hE
  exact hE

/-- What holds wherever the program ends. -/
theorem endState {x : EStateM ε σ α} (h : Maintains I E x) (hs : I s) {P : σ → Prop}
    (hI : ∀ s, I s → P s) (hE : ∀ e s, E e s → P s) : P (Prog.endState (x s)) := by
  have hx := h s hs
  cases hr : x s with
  | ok a s' =>
      rw [hr] at hx
      exact hI s' hx
  | error e s' =>
      rw [hr] at hx
      exact hE e s' hx

/-- Less may be said of a stop. -/
theorem weaken {F : ε → σ → Prop} {x : EStateM ε σ α} (h : Maintains I E x)
    (hF : ∀ e s, E e s → F e s) : Maintains I F x := by
  intro s hs
  have hx := h s hs
  cases hxs : x s with
  | ok a s' => rw [hxs] at hx; exact hx
  | error e s' => rw [hxs] at hx; exact hF e s' hx

/-- A plain recursion over a list, leaving early on `some`. -/
protected theorem findSomeM {body : α → EStateM ε σ (Option β)} {xs : List α}
    (h : ∀ x ∈ xs, Maintains I E (body x)) : Maintains I E (xs.findSomeM? body) := by
  induction xs with
  | nil => exact Maintains.pure none
  | cons x xs ih =>
      refine Maintains.bind (h x List.mem_cons_self) fun r => ?_
      cases r with
      | some b => exact Maintains.pure _
      | none => exact ih fun y hy => h y (List.mem_cons_of_mem _ hy)

end Maintains

/-- Two invariants at once. -/
theorem Maintains.and {I J : σ → Prop} {E F : ε → σ → Prop} {x : EStateM ε σ α}
    (h : Maintains I E x) (h' : Maintains J F x) :
    Maintains (fun s => I s ∧ J s) (fun e s => E e s ∧ F e s) x := by
  intro s hs
  have hI := h s hs.1
  have hJ := h' s hs.2
  cases hx : x s with
  | ok a s' => rw [hx] at hI hJ; exact ⟨hI, hJ⟩
  | error e s' => rw [hx] at hI hJ; exact ⟨hI, hJ⟩

/-! ## lockstep under an invariant -/

/-- Lockstep simulation from the states with `I`. -/
def SimOn (I : σ → Prop) (R : σ → τ → Prop) (x : EStateM ε σ α) (y : EStateM ε τ α) : Prop :=
  ∀ s t, I s → R s t → Agree R (x s) (y t)

theorem Sim.on {I : σ → Prop} {R : σ → τ → Prop} {x : EStateM ε σ α} {y : EStateM ε τ α}
    (h : Sim R x y) : SimOn I R x y := fun s t _ hst => h s t hst

namespace SimOn

variable {I : σ → Prop} {R : σ → τ → Prop}

protected theorem bind {x : EStateM ε σ α} {y : EStateM ε τ α} {f : α → EStateM ε σ β}
    {g : α → EStateM ε τ β} (hI : Maintains I (fun _ _ => True) x) (hx : SimOn I R x y)
    (hf : ∀ a, SimOn I R (f a) (g a)) : SimOn I R (x >>= f) (y >>= g) := by
  intro s t hs hst
  have hxy := hx s t hs hst
  have hs' := hI s hs
  rw [bind_apply, bind_apply]
  generalize x s = rx, y t = ry at hxy hs'
  cases hxy with
  | ok a h => exact hf a _ _ hs' h
  | error e h => exact .error e h

protected theorem ite {c : Prop} [Decidable c] {x x' : EStateM ε σ α} {y y' : EStateM ε τ α}
    (h : SimOn I R x y) (h' : SimOn I R x' y') :
    SimOn I R (if c then x else x') (if c then y else y') := by
  by_cases hc : c
  · rw [if_pos hc, if_pos hc]
    exact h
  · rw [if_neg hc, if_neg hc]
    exact h'

end SimOn

/-! ## the same but for a stop -/

/-- `x` does what `y` does, unless it stops for the reason `e`. -/
def Unless (e : ε) (x y : EStateM ε σ α) : Prop := ∀ s, (∃ t, x s = .error e t) ∨ x s = y s

namespace Unless

variable {e : ε}

protected theorem refl (x : EStateM ε σ α) : Unless e x x := fun _ => .inr rfl

protected theorem bind {x y : EStateM ε σ α} {f g : α → EStateM ε σ β} (hx : Unless e x y)
    (hf : ∀ a, Unless e (f a) (g a)) : Unless e (x >>= f) (y >>= g) := by
  intro s
  rcases hx s with ⟨t, ht⟩ | heq
  · exact .inl ⟨t, bind_of_error f ht⟩
  · rw [bind_apply, bind_apply, ← heq]
    cases x s with
    | ok a s' => exact hf a s'
    | error e' s' => exact .inr rfl

protected theorem ite {c : Prop} [Decidable c] {x x' y y' : EStateM ε σ α} (h : Unless e x y)
    (h' : Unless e x' y') : Unless e (if c then x else x') (if c then y else y') := by
  by_cases hc : c
  · rw [if_pos hc, if_pos hc]
    exact h
  · rw [if_neg hc, if_neg hc]
    exact h'

protected theorem findSomeM {body body' : α → EStateM ε σ (Option β)}
    (h : ∀ x, Unless e (body x) (body' x)) (xs : List α) :
    Unless e (xs.findSomeM? body) (xs.findSomeM? body') := by
  induction xs with
  | nil => exact Unless.refl _
  | cons x xs ih =>
      refine Unless.bind (h x) fun r => ?_
      cases r with
      | some b => exact Unless.refl _
      | none => exact ih

end Unless

/-! ## what a program appends -/

/-- Started in a state with `I`, a return of `x` has appended `os` to the list
`v` of the state and kept `I`; a stop has appended a part of `os` from its
beginning and is for a reason in `E`. -/
def Appends (I : σ → Prop) (E : ε → Prop) (v : σ → List γ) (os : List γ) (x : EStateM ε σ α) :
    Prop :=
  ∀ s, I s → match x s with
    | .ok _ s' => I s' ∧ v s' = v s ++ os
    | .error e s' => E e ∧ ∃ pre, pre <+: os ∧ v s' = v s ++ pre

namespace Appends

variable {I : σ → Prop} {E : ε → Prop} {v : σ → List γ}

/-- A program that leaves the list alone. -/
theorem nil_of_maintains {x : EStateM ε σ α}
    (h : ∀ c, Maintains (fun s => I s ∧ v s = c) (fun e s => E e ∧ v s = c) x) :
    Appends I E v [] x := by
  intro s hs
  have hx := h (v s) s ⟨hs, rfl⟩
  cases hxs : x s with
  | ok a s' =>
      rw [hxs] at hx
      exact ⟨hx.1, hx.2.trans (List.append_nil _).symm⟩
  | error e s' =>
      rw [hxs] at hx
      exact ⟨hx.1, [], List.prefix_rfl, hx.2.trans (List.append_nil _).symm⟩

protected theorem pure (a : α) : Appends I E v [] (pure a : EStateM ε σ α) :=
  fun _ hs => ⟨hs, (List.append_nil _).symm⟩

protected theorem update {f : σ → σ} {os : List γ} (hI : ∀ s, I s → I (f s))
    (hv : ∀ s, v (f s) = v s ++ os) : Appends I E v os (update f : EStateM ε σ Unit) :=
  fun s hs => ⟨hI s hs, hv s⟩

protected theorem bind {x : EStateM ε σ α} {f : α → EStateM ε σ β} {os os' : List γ}
    (hx : Appends I E v os x) (hf : ∀ a, Appends I E v os' (f a)) :
    Appends I E v (os ++ os') (x >>= f) := by
  intro s hs
  have h := hx s hs
  rw [bind_apply]
  cases hxs : x s with
  | ok a s' =>
      rw [hxs] at h
      have h' := hf a s' h.1
      simp only
      cases hfs : f a s' with
      | ok b s'' =>
          rw [hfs] at h'
          exact ⟨h'.1, by rw [h'.2, h.2, List.append_assoc]⟩
      | error e s'' =>
          rw [hfs] at h'
          obtain ⟨he, pre, hpre, hv⟩ := h'
          exact ⟨he, os ++ pre, List.prefix_append_right_inj os |>.mpr hpre, by
            rw [hv, h.2, List.append_assoc]⟩
  | error e s' =>
      rw [hxs] at h
      obtain ⟨he, pre, hpre, hv⟩ := h
      exact ⟨he, pre, hpre.trans (List.prefix_append os os'), hv⟩

/-- A first step that only looks at the state. -/
theorem bind_of_eq {x : EStateM ε σ α} {f : α → EStateM ε σ β} {os : List γ} {a : α}
    (hx : ∀ s, I s → x s = .ok a s) (hf : Appends I E v os (f a)) :
    Appends I E v os (x >>= f) := by
  intro s hs
  rw [bind_of_ok f (hx s hs)]
  exact hf s hs

/-- A recursion over a list that is never left early. -/
protected theorem findSomeM {body : α → EStateM ε σ (Option β)} {xs : List α}
    {g : α → List γ} (h : ∀ x ∈ xs, Appends I E v (g x) (body x))
    (hnone : ∀ x s b s', body x s = .ok b s' → b = none) :
    Appends I E v (xs.flatMap g) (xs.findSomeM? body) := by
  induction xs with
  | nil => exact Appends.pure none
  | cons x xs ih =>
      have hrest := ih fun y hy => h y (List.mem_cons_of_mem _ hy)
      intro s hs
      have hx := h x List.mem_cons_self s hs
      rw [List.flatMap_cons, List.findSomeM?, bind_apply]
      cases hxs : body x s with
      | ok b s' =>
          rw [hxs] at hx
          cases hnone x s b s' hxs
          have hr := hrest s' hx.1
          simp only
          cases hrs : xs.findSomeM? body s' with
          | ok b s'' =>
              rw [hrs] at hr
              exact ⟨hr.1, by rw [hr.2, hx.2, List.append_assoc]⟩
          | error e s'' =>
              rw [hrs] at hr
              obtain ⟨he, pre, hpre, hv⟩ := hr
              exact ⟨he, g x ++ pre, List.prefix_append_right_inj (g x) |>.mpr hpre, by
                rw [hv, hx.2, List.append_assoc]⟩
      | error e s' =>
          rw [hxs] at hx
          obtain ⟨he, pre, hpre, hv⟩ := hx
          exact ⟨he, pre, hpre.trans (List.prefix_append _ _), hv⟩

end Appends

/-! ## what a program does -/

/-- A relation between a state, a list of things done, and the state after. -/
structure Composes (P : σ → List γ → σ → Prop) : Prop where
  refl : ∀ s, P s [] s
  trans : ∀ {s s' s'' ks ks'}, P s ks s' → P s' ks' s'' → P s (ks ++ ks') s''

/-- A return of `x` from a state with `I` is to one with `I` again, related to
the first one by `P` at the list `ks`. -/
def Does (I : σ → Prop) (P : σ → List γ → σ → Prop) (ks : List γ) (x : EStateM ε σ α) : Prop :=
  ∀ s a s', I s → x s = .ok a s' → I s' ∧ P s ks s'

namespace Does

variable {I : σ → Prop} {P : σ → List γ → σ → Prop} (hP : Composes P)
include hP

protected theorem pure (a : α) : Does I P [] (pure a : EStateM ε σ α) := by
  intro s b s' hs h
  cases h
  exact ⟨hs, hP.refl s⟩

protected theorem bind {x : EStateM ε σ α} {f : α → EStateM ε σ β} {ks ks' : List γ}
    (hx : Does I P ks x) (hf : ∀ a, Does I P ks' (f a)) : Does I P (ks ++ ks') (x >>= f) := by
  intro s b s'' hs h
  obtain ⟨a, s', hxs, hfs⟩ := bind_eq_ok.mp h
  obtain ⟨hs', h1⟩ := hx s a s' hs hxs
  obtain ⟨hs'', h2⟩ := hf a s' b s'' hs' hfs
  exact ⟨hs'', hP.trans h1 h2⟩

omit hP in
/-- A first step that only looks at the state. -/
theorem bind_of_eq {x : EStateM ε σ α} {f : α → EStateM ε σ β} {ks : List γ} {a : α}
    (hx : ∀ s, I s → x s = .ok a s) (hf : Does I P ks (f a)) : Does I P ks (x >>= f) := by
  intro s b s' hs h
  rw [bind_of_ok f (hx s hs)] at h
  exact hf s b s' hs h

/-- A recursion over a list that is never left early. -/
protected theorem findSomeM {body : α → EStateM ε σ (Option β)} {xs : List α} {g : α → List γ}
    (h : ∀ x ∈ xs, Does I P (g x) (body x))
    (hnone : ∀ x s b s', body x s = .ok b s' → b = none) :
    Does I P (xs.flatMap g) (xs.findSomeM? body) := by
  induction xs with
  | nil => exact Does.pure hP none
  | cons x xs ih =>
      have hrest := ih fun y hy => h y (List.mem_cons_of_mem _ hy)
      intro s b s'' hs hrun
      obtain ⟨r, s', hx, hrun⟩ := bind_eq_ok.mp hrun
      obtain ⟨hs', h1⟩ := h x List.mem_cons_self s r s' hs hx
      cases hnone x s r s' hx
      obtain ⟨hs'', h2⟩ := hrest s' b s'' hs' hrun
      exact ⟨hs'', hP.trans h1 h2⟩

end Does

/-- From a state with `I`, `x` returns to one with `I` again, related to the first one
by `P` at the list `ks`. -/
def Achieves (I : σ → Prop) (P : σ → List γ → σ → Prop) (ks : List γ) (x : EStateM ε σ α) : Prop :=
  ∀ s, I s → ∃ a s', x s = .ok a s' ∧ I s' ∧ P s ks s'

/-- What programs do, one after the other: a judgement about programs and the lists of
things that they do. -/
structure Sequences (I : σ → Prop) (J : ∀ {α : Type}, List γ → EStateM ε σ α → Prop) : Prop where
  pure : ∀ {α : Type} (a : α), J [] (pure a)
  bind : ∀ {α β : Type} {x : EStateM ε σ α} {f : α → EStateM ε σ β} {ks ks' : List γ},
    J ks x → (∀ a, J ks' (f a)) → J (ks ++ ks') (x >>= f)
  bind_of_eq : ∀ {α β : Type} {x : EStateM ε σ α} {f : α → EStateM ε σ β} {ks : List γ} {a : α},
    (∀ s, I s → x s = .ok a s) → J ks (f a) → J ks (x >>= f)
  findSomeM : ∀ {α β : Type} {body : α → EStateM ε σ (Option β)} {xs : List α} {g : α → List γ},
    (∀ x ∈ xs, J (g x) (body x)) → (∀ x s b s', body x s = .ok b s' → b = none) →
      J (xs.flatMap g) (xs.findSomeM? body)
  congr : ∀ {α : Type} {x y : EStateM ε σ α} {ks : List γ},
    (∀ s, I s → x s = y s) → J ks y → J ks x

theorem Does.sequences {I : σ → Prop} {P : σ → List γ → σ → Prop} (hP : Composes P) :
    Sequences I fun {α} ks (x : EStateM ε σ α) => Does I P ks x where
  pure := Does.pure hP
  bind := Does.bind hP
  bind_of_eq := Does.bind_of_eq
  findSomeM := Does.findSomeM hP
  congr hxy hy s a s' hs h := hy s a s' hs ((hxy s hs).symm.trans h)

theorem Achieves.sequences {I : σ → Prop} {P : σ → List γ → σ → Prop} (hP : Composes P) :
    Sequences I fun {α} ks (x : EStateM ε σ α) => Achieves I P ks x where
  pure a s hs := ⟨a, s, rfl, hs, hP.refl s⟩
  bind hx hf s hs := by
    obtain ⟨a, s', hxs, hs', h1⟩ := hx s hs
    obtain ⟨b, s'', hfs, hs'', h2⟩ := hf a s' hs'
    exact ⟨b, s'', (bind_of_ok _ hxs).trans hfs, hs'', hP.trans h1 h2⟩
  bind_of_eq hx hf s hs := by
    obtain ⟨b, s', hfs, h⟩ := hf s hs
    exact ⟨b, s', (bind_of_ok _ (hx s hs)).trans hfs, h⟩
  findSomeM := by
    intro α β body xs g h hnone
    induction xs with
    | nil => exact fun s hs => ⟨none, s, rfl, hs, hP.refl s⟩
    | cons x xs ih =>
        intro s hs
        obtain ⟨r, s', hx, hs', h1⟩ := h x List.mem_cons_self s hs
        cases hnone x s r s' hx
        obtain ⟨b, s'', hrest, hs'', h2⟩ := ih (fun y hy => h y (List.mem_cons_of_mem _ hy)) s' hs'
        exact ⟨b, s'', (bind_of_ok _ hx).trans hrest, hs'', hP.trans h1 h2⟩
  congr hxy hy s hs := by
    obtain ⟨a, s', hys, h⟩ := hy s hs
    exact ⟨a, s', (hxy s hs).trans hys, h⟩

/-- Like `Does`; and a stop of `x` is as `E` says. -/
def Walks (I : σ → Prop) (P E : σ → List γ → σ → Prop) (ks : List γ) (x : EStateM ε σ α) : Prop :=
  ∀ s, I s → match x s with
    | .ok _ s' => I s' ∧ P s ks s'
    | .error _ s' => E s ks s'

/-- What is said of a stop holds of a longer list of things to do. -/
structure Interrupts (P E : σ → List γ → σ → Prop) : Prop where
  early : ∀ {s s' ks} (ks' : List γ), E s ks s' → E s (ks ++ ks') s'
  late : ∀ {s s' s'' ks ks'}, P s ks s' → E s' ks' s'' → E s (ks ++ ks') s''

theorem Walks.of_cases {I : σ → Prop} {P E : σ → List γ → σ → Prop} {ks : List γ}
    {x : EStateM ε σ α} (hok : Does I P ks x)
    (herror : ∀ s e s', I s → x s = .error e s' → E s ks s') : Walks I P E ks x := by
  intro s hs
  cases hx : x s with
  | ok a s' => exact hok s a s' hs hx
  | error e s' => exact herror s e s' hs hx

theorem Walks.of_ok {I : σ → Prop} {P E : σ → List γ → σ → Prop} {ks : List γ}
    {x : EStateM ε σ α} (h : Walks I P E ks x) (hs : I s) (hx : x s = .ok a s') :
    I s' ∧ P s ks s' := by
  have hP := h s hs
  rw [hx] at hP
  exact hP

theorem Walks.of_error {I : σ → Prop} {P E : σ → List γ → σ → Prop} {ks : List γ}
    {x : EStateM ε σ α} (h : Walks I P E ks x) (hs : I s) (hx : x s = .error e s') :
    E s ks s' := by
  have hE := h s hs
  rw [hx] at hE
  exact hE

protected theorem Walks.bind {I : σ → Prop} {P E : σ → List γ → σ → Prop} (hP : Composes P)
    (hE : Interrupts P E) {x : EStateM ε σ α} {f : α → EStateM ε σ β} {ks ks' : List γ}
    (hx : Walks I P E ks x) (hf : ∀ a, Walks I P E ks' (f a)) :
    Walks I P E (ks ++ ks') (x >>= f) := by
  intro s hs
  rw [bind_apply]
  cases hxs : x s with
  | error e s' => exact hE.early ks' (hx.of_error hs hxs)
  | ok a s' =>
      obtain ⟨hs', h1⟩ := hx.of_ok hs hxs
      simp only
      cases hfs : f a s' with
      | error e s'' => exact hE.late h1 ((hf a).of_error hs' hfs)
      | ok b s'' =>
          obtain ⟨hs'', h2⟩ := (hf a).of_ok hs' hfs
          exact ⟨hs'', hP.trans h1 h2⟩

theorem Walks.sequences {I : σ → Prop} {P E : σ → List γ → σ → Prop} (hP : Composes P)
    (hE : Interrupts P E) : Sequences I fun {α} ks (x : EStateM ε σ α) => Walks I P E ks x where
  pure a s hs := ⟨hs, hP.refl s⟩
  bind := Walks.bind hP hE
  bind_of_eq hx hf s hs := by
    rw [bind_of_ok _ (hx s hs)]
    exact hf s hs
  findSomeM := by
    intro α β body xs g h hnone
    induction xs with
    | nil => exact fun s hs => ⟨hs, hP.refl s⟩
    | cons x xs ih =>
        intro s hs
        have hx := h x List.mem_cons_self
        have hrest := ih fun y hy => h y (List.mem_cons_of_mem _ hy)
        rw [List.findSomeM?, bind_apply, List.flatMap_cons]
        cases hxs : body x s with
        | error e s' => exact hE.early _ (hx.of_error hs hxs)
        | ok r s' =>
            obtain ⟨hs', h1⟩ := hx.of_ok hs hxs
            cases hnone x s r s' hxs
            simp only
            cases hrs : xs.findSomeM? body s' with
            | error e s'' => exact hE.late h1 (hrest.of_error hs' hrs)
            | ok b s'' =>
                obtain ⟨hs'', h2⟩ := hrest.of_ok hs' hrs
                exact ⟨hs'', hP.trans h1 h2⟩
  congr hxy hy s hs := by
    rw [hxy s hs]
    exact hy s hs

/-- The elements up to and including the first one with the property. -/
def upTo (p : α → Bool) : List α → List α
  | [] => []
  | a :: as => if p a then [a] else a :: upTo p as

/-- A recursion over a list that is left, in the way `stop`, at the first element with
a property. -/
theorem findSomeM_upTo {I : σ → Prop} {P : σ → List γ → σ → Prop} (hP : Composes P)
    {body : α → EStateM ε σ (Option β)} (stop : σ → EStateM.Result ε σ (Option β))
    (hstop : ∀ s s', stop s ≠ .ok none s') {p : α → Bool} {g : α → γ} {xs : List α}
    (h : ∀ a ∈ xs, ∀ s, I s →
      ∃ s', I s' ∧ P s [g a] s' ∧ body a s = if p a then stop s' else .ok none s')
    {s : σ} (hs : I s) :
    ∃ s', I s' ∧ P s ((upTo p xs).map g) s' ∧
      xs.findSomeM? body s = if xs.any p then stop s' else .ok none s' := by
  induction xs generalizing s with
  | nil => exact ⟨s, hs, hP.refl s, rfl⟩
  | cons a xs ih =>
      obtain ⟨s1, hs1, h1, hbody⟩ := h a List.mem_cons_self s hs
      rw [List.findSomeM?, bind_apply, hbody, upTo, List.any_cons]
      cases hp : p a with
      | true =>
          refine ⟨s1, hs1, h1, ?_⟩
          have hne := hstop s1
          simp only [if_true, Bool.true_or]
          generalize stop s1 = r at hne ⊢
          match r with
          | .ok (some b) t => rfl
          | .ok none t => exact absurd rfl (hne t)
          | .error e t => rfl
      | false =>
          obtain ⟨s2, hs2, h2, hrest⟩ := ih (fun c hc => h c (List.mem_cons_of_mem a hc)) hs1
          exact ⟨s2, hs2, hP.trans h1 h2, hrest⟩

/-- What a recursion does that does something for some of the elements. -/
theorem flatMap_ite_singleton (p : α → Prop) [DecidablePred p] (f : α → β) (xs : List α) :
    (xs.flatMap fun a => if p a then [f a] else []) = (xs.filter fun a => p a).map f := by
  induction xs with
  | nil => rfl
  | cons a xs ih =>
      rw [List.flatMap_cons, ih, List.filter_cons]
      by_cases h : p a
      · rw [if_pos h, if_pos (decide_eq_true h)]
        rfl
      · rw [if_neg h, if_neg fun h' => h (of_decide_eq_true h')]
        rfl

/-- A recursion over a list whose body only looks at the state. -/
theorem findSomeM_eq {body : α → EStateM ε σ (Option β)} {g : α → Option β} {s : σ}
    {xs : List α} (h : ∀ x ∈ xs, body x s = .ok (g x) s) :
    xs.findSomeM? body s = .ok (xs.findSome? g) s := by
  induction xs with
  | nil => rfl
  | cons x xs ih =>
      rw [List.findSomeM?, bind_of_ok _ (h x List.mem_cons_self), List.findSome?_cons]
      cases g x with
      | some b => rfl
      | none => exact ih fun y hy => h y (List.mem_cons_of_mem _ hy)

/-! ## views a program leaves alone -/

/-- A normal return of `x` leaves the view `v` unchanged. -/
def Keeps (v : σ → γ) (x : EStateM ε σ α) : Prop :=
  ∀ c, Maintains (fun s => v s = c) (fun _ _ => True) x

namespace Keeps

variable {v : σ → γ}

theorem of_ok {x : EStateM ε σ α} (h : Keeps v x) (hx : x s = .ok a s') : v s' = v s := by
  have hv := h (v s) s rfl
  rw [hx] at hv
  exact hv

protected theorem pure (a : α) : Keeps v (pure a : EStateM ε σ α) := fun _ => Maintains.pure a

protected theorem throw (e : ε) : Keeps v (throw e : EStateM ε σ α) :=
  fun _ => Maintains.throw fun _ _ => trivial

protected theorem read (p : σ → α) : Keeps v (read p : EStateM ε σ α) :=
  fun _ => Maintains.read p

protected theorem update {f : σ → σ} (h : ∀ s, v (f s) = v s) :
    Keeps v (update f : EStateM ε σ Unit) :=
  fun _ => Maintains.update fun s hs => (h s).trans hs

protected theorem bind {x : EStateM ε σ α} {f : α → EStateM ε σ β} (hx : Keeps v x)
    (hf : ∀ a, Keeps v (f a)) : Keeps v (x >>= f) :=
  fun c => Maintains.bind (hx c) fun a => hf a c

protected theorem ite {c : Prop} [Decidable c] {x y : EStateM ε σ α} (hx : Keeps v x)
    (hy : Keeps v y) : Keeps v (if c then x else y) :=
  fun a => Maintains.ite (hx a) (hy a)

/-- What holds of a kept view stays so. -/
theorem maintains {x : EStateM ε σ α} {I : γ → Prop} (h : Keeps v x) :
    Maintains (fun s => I (v s)) (fun _ _ => True) x := by
  intro s hs
  cases hx : x s with
  | ok a s' =>
      show I (v s')
      rw [h.of_ok hx]
      exact hs
  | error e s' => trivial

/-- A view that is computed from a kept view is kept. -/
theorem comp {x : EStateM ε σ α} {δ : Type} (h : Keeps v x) (g : γ → δ) :
    Keeps (fun s => g (v s)) x := by
  intro c s hs
  cases hx : x s with
  | ok a s' => exact (congrArg g (h.of_ok hx)).trans hs
  | error e s' => trivial

end Keeps

/-! ## before and after -/

/-- From a state with `I`, a normal return of `x` is as `J` says, and an abnormal
stop as `E` says. -/
def Leads (I : σ → Prop) (J : α → σ → Prop) (E : ε → σ → Prop) (x : EStateM ε σ α) : Prop :=
  ∀ s, I s → match x s with
    | .ok a s' => J a s'
    | .error e s' => E e s'

namespace Leads

variable {I : σ → Prop} {E : ε → σ → Prop}

protected theorem pure {J : α → σ → Prop} {a : α} (h : ∀ s, I s → J a s) :
    Leads I J E (pure a : EStateM ε σ α) := h

protected theorem throw {J : α → σ → Prop} {e : ε} (h : ∀ s, I s → E e s) :
    Leads I J E (throw e : EStateM ε σ α) := h

protected theorem update {J : Unit → σ → Prop} {f : σ → σ} (h : ∀ s, I s → J () (f s)) :
    Leads I J E (update f : EStateM ε σ Unit) := h

protected theorem bind {J : α → σ → Prop} {K : β → σ → Prop} {x : EStateM ε σ α}
    {f : α → EStateM ε σ β} (hx : Leads I J E x) (hf : ∀ a, Leads (J a) K E (f a)) :
    Leads I K E (x >>= f) := by
  intro s hs
  have h := hx s hs
  rw [bind_apply]
  cases hxs : x s with
  | ok a s' => rw [hxs] at h; exact hf a s' h
  | error e s' => rw [hxs] at h; exact h

/-- A value read from the state may be used with what the state says of it. -/
theorem bind_read {J : β → σ → Prop} {p : σ → α} {f : α → EStateM ε σ β}
    (h : ∀ a, Leads (fun s => I s ∧ p s = a) J E (f a)) : Leads I J E (read p >>= f) :=
  fun s hs => h (p s) s ⟨hs, rfl⟩

/-- What holds in any state may be assumed. -/
theorem of_imp {J : α → σ → Prop} {A : Prop} {x : EStateM ε σ α} (h : A → Leads I J E x) :
    Leads (fun s => A ∧ I s) J E x :=
  fun s hs => h hs.1 s hs.2

theorem of_ok {J : α → σ → Prop} {x : EStateM ε σ α} (h : Leads I J E x) (hs : I s)
    (hx : x s = .ok a s') : J a s' := by
  have hJ := h s hs
  rw [hx] at hJ
  exact hJ

theorem of_error {J : α → σ → Prop} {x : EStateM ε σ α} (h : Leads I J E x) (hs : I s)
    (hx : x s = .error e s') : E e s' := by
  have hE := h s hs
  rw [hx] at hE
  exact hE

/-- What holds wherever the program ends. -/
theorem endState {P : σ → Prop} {x : EStateM ε σ α} (h : Leads I (fun _ => P) (fun _ => P) x)
    (hs : I s) : P (Prog.endState (x s)) := by
  have hend := h s hs
  cases hx : x s with
  | ok a s' => rw [hx] at hend; exact hend
  | error e s' => rw [hx] at hend; exact hend

/-- A kept view of the state is the same after as before. -/
theorem keeping {J : α → σ → Prop} {x : EStateM ε σ α} {v : σ → γ} {c : γ} (hv : Keeps v x)
    (h : Leads (fun s => v s = c ∧ I s) J E x) :
    Leads (fun s => v s = c ∧ I s) (fun a s => v s = c ∧ J a s) E x := by
  intro s hs
  have hJ := h s hs
  cases hxs : x s with
  | ok a s' =>
      rw [hxs] at hJ
      exact ⟨(hv.of_ok hxs).trans hs.1, hJ⟩
  | error e s' =>
      rw [hxs] at hJ
      exact hJ

/-- More may be asked before, and less said after. -/
theorem weaken {I' : σ → Prop} {J J' : α → σ → Prop} {E' : ε → σ → Prop} {x : EStateM ε σ α}
    (h : Leads I J E x) (hI : ∀ s, I' s → I s) (hJ : ∀ a s, J a s → J' a s)
    (hE : ∀ e s, E e s → E' e s) : Leads I' J' E' x := by
  intro s hs
  have hx := h s (hI s hs)
  cases hxs : x s with
  | ok a s' => rw [hxs] at hx; exact hJ a s' hx
  | error e s' => rw [hxs] at hx; exact hE e s' hx

/-- Less may be said of a stop. -/
theorem stop {J : α → σ → Prop} {E' : ε → σ → Prop} {x : EStateM ε σ α} (h : Leads I J E x)
    (hE : ∀ e s, E e s → E' e s) : Leads I J E' x :=
  h.weaken (fun _ hs => hs) (fun _ _ hs => hs) hE

end Leads

end LibCheck.Prog
