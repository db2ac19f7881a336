import LibCheck.Prog

/-!
# LibCheck.Cursor

Loops over a container that keeps its own cursor inside the state:

```
for(rewind(c); !atEnd(c); advance(c)) { x = val(c); body(x); }
```

The body is an arbitrary program over the same state, so it may move the
cursor it is being driven by; how often the loop runs is then not determined
by the container.  `forEach` therefore carries a budget: the number of
elements plus an arbitrary `slack`, after which it stops with the given
reason.  A body leaves the loop early by returning `some`.

`Cursor.agree_forEach` is the rule for bodies that leave their own cursor where it
was: such a loop runs in lockstep with plain recursion over the elements
(`List.findSomeM?`), for every slack.  `Cursor.agree_forEach_of_next` asks for
less: the body may move the cursor, if the next element is up all the same.
-/

namespace LibCheck

open Prog

variable {ε σ τ α β : Type}

/-- The operations of a container with a built-in cursor, inside a state. -/
structure Cursor (σ α : Type) where
  /-- put the cursor on the first element -/
  rewind : σ → σ
  /-- the cursor is past the last element -/
  atEnd : σ → Bool
  /-- the element under the cursor -/
  val : σ → Option α
  /-- move the cursor to the next element -/
  advance : σ → σ
  /-- the number of elements -/
  size : σ → Nat

namespace Cursor

/-- The loop from the present position of the cursor. -/
def loop (c : Cursor σ α) (diverged undefined : ε) (body : α → EStateM ε σ (Option β)) :
    Nat → EStateM ε σ (Option β)
  | 0 => throw diverged
  | n + 1 => do
      if ← read c.atEnd then pure none
      else match ← read c.val with
        | none => throw undefined
        | some a => do
            match ← body a with
            | some b => pure (some b)
            | none => do
                update c.advance
                loop c diverged undefined body n

/-- The loop from the front, within the budget of `slack` iterations more than
there are elements. -/
def forEach (c : Cursor σ α) (slack : Nat) (diverged undefined : ε)
    (body : α → EStateM ε σ (Option β)) : EStateM ε σ (Option β) := do
  update c.rewind
  let n ← read c.size
  loop c diverged undefined body (n + slack + 1)

/-- What the operations mean: `Holds xs s` says that the container holds `xs`,
`At xs k s` that moreover the cursor is at position `k`. -/
structure Laws (c : Cursor σ α) (Holds : List α → σ → Prop) (At : List α → Nat → σ → Prop) :
    Prop where
  rewind : Holds xs s → At xs 0 (c.rewind s)
  size : At xs k s → c.size s = xs.length
  atEnd : At xs k s → (c.atEnd s = true ↔ xs.length ≤ k)
  val : At xs k s → c.val s = xs[k]?
  advance : At xs k s → k < xs.length → At xs (k + 1) (c.advance s)

variable {c : Cursor σ α} {Holds : List α → σ → Prop} {At : List α → Nat → σ → Prop}
  {diverged undefined : ε}

/-- The loop at position `k` runs in lockstep with the recursion over the
elements from `k` on, provided that after the body the next element is up. -/
theorem agree_loop (hc : Laws c Holds At) {R : σ → τ → Prop} {xs : List α}
    {body : α → EStateM ε σ (Option β)} {step : α → EStateM ε τ (Option β)}
    (hadv : ∀ s t, R s t → R (c.advance s) t)
    (hbody : ∀ k (hk : k < xs.length) s t, At xs k s → R s t →
      Agree R (body xs[k] s) (step xs[k] t))
    (hnext : ∀ k (hk : k < xs.length) s s', At xs k s → body xs[k] s = .ok none s' →
      At xs (k + 1) (c.advance s'))
    (slack n k : Nat) (hk : k + n = xs.length + slack + 1) (s : σ) (t : τ) (hst : R s t)
    (hat : At xs k s) (hle : k ≤ xs.length) :
    Agree R (loop c diverged undefined body n s) ((xs.drop k).findSomeM? step t) := by
  induction n generalizing k s t with
  | zero => omega
  | succ n ih =>
      simp only [loop, bind_apply, read_apply]
      by_cases hend : xs.length ≤ k
      · rw [(hc.atEnd hat).mpr hend, List.drop_eq_nil_of_le hend]
        exact .ok none hst
      · have hlt : k < xs.length := Nat.lt_of_not_le hend
        have hatEnd : c.atEnd s = false := by
          rw [Bool.eq_false_iff]
          exact fun h => hend ((hc.atEnd hat).mp h)
        rw [hatEnd, List.drop_eq_getElem_cons hlt]
        simp only [Bool.false_eq_true, if_false, bind_apply, read_apply, hc.val hat,
          List.getElem?_eq_getElem hlt, List.findSomeM?]
        have hx := hbody k hlt s t hat hst
        cases hb : body xs[k] s with
        | error e s' =>
            rw [hb] at hx
            generalize step xs[k] t = ry at hx
            cases hx with
            | error _ h' => exact .error e h'
        | ok r s' =>
            rw [hb] at hx
            generalize step xs[k] t = ry at hx
            cases hx with
            | ok _ h' =>
                cases r with
                | some b => exact .ok (some b) h'
                | none =>
                    exact ih (k + 1) (by omega) (c.advance s') _ (hadv _ _ h')
                      (hnext k hlt s s' hat hb) (by omega)

/-- A further property of the state that moving the cursor leaves alone. -/
theorem Laws.and (hc : Laws c Holds At) {I : σ → Prop} (hrewind : ∀ s, I s → I (c.rewind s))
    (hadv : ∀ s, I s → I (c.advance s)) :
    Laws c (fun xs s => Holds xs s ∧ I s) (fun xs k s => At xs k s ∧ I s) where
  rewind h := ⟨hc.rewind h.1, hrewind _ h.2⟩
  size h := hc.size h.1
  atEnd h := hc.atEnd h.1
  val h := hc.val h.1
  advance h hk := ⟨hc.advance h.1 hk, hadv _ h.2⟩

end Cursor

/-- **Loop rule**: a loop after whose body the next element is up runs in
lockstep with plain recursion over the elements. -/
theorem Cursor.agree_forEach_of_next {c : Cursor σ α} {Holds : List α → σ → Prop}
    {At : List α → Nat → σ → Prop} (hc : Cursor.Laws c Holds At) {R : σ → τ → Prop}
    {xs : List α} {body : α → EStateM ε σ (Option β)} {step : α → EStateM ε τ (Option β)}
    (slack : Nat) (diverged undefined : ε) (hrewind : ∀ s t, R s t → R (c.rewind s) t)
    (hadv : ∀ s t, R s t → R (c.advance s) t)
    (hbody : ∀ k (hk : k < xs.length) s t, At xs k s → R s t →
      Agree R (body xs[k] s) (step xs[k] t))
    (hnext : ∀ k (hk : k < xs.length) s s', At xs k s → body xs[k] s = .ok none s' →
      At xs (k + 1) (c.advance s')) {s : σ} {t : τ} (hst : R s t) (hholds : Holds xs s) :
    Agree R (c.forEach slack diverged undefined body s) (xs.findSomeM? step t) := by
  have hat := hc.rewind hholds
  simp only [Cursor.forEach, bind_apply, update_apply, read_apply, hc.size hat]
  exact Cursor.agree_loop hc hadv hbody hnext slack (xs.length + slack + 1) 0 (by omega) _ _
    (hrewind s t hst) hat (Nat.zero_le _)

/-- A loop whose body leaves its own cursor alone runs in lockstep with plain
recursion over the elements. -/
theorem Cursor.agree_forEach {c : Cursor σ α} {Holds : List α → σ → Prop}
    {At : List α → Nat → σ → Prop} (hc : Cursor.Laws c Holds At) {R : σ → τ → Prop}
    {xs : List α} {body : α → EStateM ε σ (Option β)} {step : α → EStateM ε τ (Option β)}
    (slack : Nat) (diverged undefined : ε) (hrewind : ∀ s t, R s t → R (c.rewind s) t)
    (hadv : ∀ s t, R s t → R (c.advance s) t) (hbody : ∀ x ∈ xs, Sim R (body x) (step x))
    (hkeep : ∀ x ∈ xs, ∀ k s s', At xs k s → body x s = .ok none s' → At xs k s') {s : σ} {t : τ}
    (hst : R s t) (hholds : Holds xs s) :
    Agree R (c.forEach slack diverged undefined body s) (xs.findSomeM? step t) :=
  Cursor.agree_forEach_of_next hc slack diverged undefined hrewind hadv
    (fun _ hk s t _ h => hbody _ (List.getElem_mem hk) s t h)
    (fun k hk s s' hat hb => hc.advance (hkeep _ (List.getElem_mem hk) k s s' hat hb) hk)
    hst hholds

/-- A loop leaves alone every view that its body and the cursor moves leave
alone. -/
theorem Prog.Keeps.forEach {c : Cursor σ α} {v : σ → γ} {body : α → EStateM ε σ (Option β)}
    (slack : Nat) (diverged undefined : ε) (hrewind : ∀ s, v (c.rewind s) = v s)
    (hadv : ∀ s, v (c.advance s) = v s) (hbody : ∀ x, Keeps v (body x)) :
    Keeps v (c.forEach slack diverged undefined body) := by
  have hloop : ∀ n, Keeps v (c.loop diverged undefined body n) := by
    intro n
    induction n with
    | zero => exact Keeps.throw _
    | succ n ih =>
        refine Keeps.bind (Keeps.read _) fun e => ?_
        cases e with
        | true => exact Keeps.pure none
        | false =>
            refine Keeps.bind (Keeps.read _) fun a => ?_
            cases a with
            | none => exact Keeps.throw _
            | some a =>
                refine Keeps.bind (hbody a) fun r => ?_
                cases r with
                | some b => exact Keeps.pure _
                | none => exact Keeps.bind (Keeps.update hadv) fun _ => ih
  exact Keeps.bind (Keeps.update hrewind) fun _ =>
    Keeps.bind (Keeps.read _) fun n => hloop (n + slack + 1)

/-- Loops whose bodies do the same unless they stop for a reason. -/
theorem Prog.Unless.forEach {e : ε} {c : Cursor σ α} {body body' : α → EStateM ε σ (Option β)}
    (slack : Nat) (diverged undefined : ε) (h : ∀ a, Unless e (body a) (body' a)) :
    Unless e (c.forEach slack diverged undefined body)
      (c.forEach slack diverged undefined body') := by
  have hloop : ∀ n, Unless e (c.loop diverged undefined body n)
      (c.loop diverged undefined body' n) := by
    intro n
    induction n with
    | zero => exact Unless.refl _
    | succ n ih =>
        refine Unless.bind (Unless.refl _) fun atEnd => Unless.ite (Unless.refl _)
          (Unless.bind (Unless.refl _) fun a => ?_)
        cases a with
        | none => exact Unless.refl _
        | some a =>
            refine Unless.bind (h a) fun r => ?_
            cases r with
            | some b => exact Unless.refl _
            | none => exact Unless.bind (Unless.refl _) fun _ => ih
  exact Unless.bind (Unless.refl _) fun _ => Unless.bind (Unless.refl _) fun n =>
    hloop (n + slack + 1)

namespace Cursor

variable {c : Cursor σ α} {Holds : List α → σ → Prop} {At : List α → Nat → σ → Prop}

/-- A search from position `k` on: the body only looks at the state, and the
cursor is left where the search ends. -/
theorem loop_find (hc : Laws c Holds At) (diverged undefined : ε) {xs : List α}
    {body : α → EStateM ε σ (Option β)} {g : α → Option β} {I : σ → Prop}
    (hadv : ∀ s, I s → I (c.advance s)) (hbody : ∀ a s, I s → body a s = .ok (g a) s)
    (slack n k : Nat) (hk : k + n = xs.length + slack + 1) (s : σ) (hs : I s) (hat : At xs k s)
    (hle : k ≤ xs.length) :
    ∃ s', loop c diverged undefined body n s = .ok ((xs.drop k).findSome? g) s' ∧
      At xs (k + (xs.drop k).findIdx fun a => (g a).isSome) s' := by
  induction n generalizing k s with
  | zero => omega
  | succ n ih =>
      simp only [loop, bind_apply, read_apply]
      by_cases hend : xs.length ≤ k
      · rw [(hc.atEnd hat).mpr hend, List.drop_eq_nil_of_le hend]
        exact ⟨s, rfl, hat⟩
      · have hlt : k < xs.length := Nat.lt_of_not_le hend
        have hatEnd : c.atEnd s = false := by
          rw [Bool.eq_false_iff]
          exact fun h => hend ((hc.atEnd hat).mp h)
        rw [hatEnd, List.drop_eq_getElem_cons hlt]
        simp only [Bool.false_eq_true, if_false, bind_apply, read_apply, hc.val hat,
          List.getElem?_eq_getElem hlt, List.findSome?_cons, List.findIdx_cons, hbody _ s hs]
        cases hg : g xs[k] with
        | some b => exact ⟨s, rfl, hat⟩
        | none =>
            obtain ⟨s', hrun, hat'⟩ := ih (k + 1) (by omega) (c.advance s) (hadv s hs)
              (hc.advance hat hlt) (by omega)
            rw [Nat.add_right_comm] at hat'
            exact ⟨s', hrun, hat'⟩

/-- **Search rule**: a loop whose body only looks at the state, and leaves the
loop at some elements, ends with the cursor on the first of these, or past the
last element. -/
theorem forEach_find (hc : Laws c Holds At) (slack : Nat) (diverged undefined : ε) {xs : List α}
    {body : α → EStateM ε σ (Option β)} {g : α → Option β} {I : σ → Prop}
    (hrewind : ∀ s, I s → I (c.rewind s)) (hadv : ∀ s, I s → I (c.advance s))
    (hbody : ∀ a s, I s → body a s = .ok (g a) s) {s : σ} (hs : I s) (hholds : Holds xs s) :
    ∃ s', c.forEach slack diverged undefined body s = .ok (xs.findSome? g) s' ∧
      At xs (xs.findIdx fun a => (g a).isSome) s' := by
  have hat := hc.rewind hholds
  obtain ⟨s', hrun, hat'⟩ := loop_find hc diverged undefined hadv hbody
    slack (xs.length + slack + 1) 0 (by omega) _ (hrewind s hs) hat (Nat.zero_le _)
  refine ⟨s', ?_, ?_⟩
  · simp only [Cursor.forEach, bind_apply, update_apply, read_apply, hc.size hat]
    exact hrun
  · simpa using hat'

end Cursor

end LibCheck
