import LibCheck.Lockstep

/-!
# LibCheck.Guarded

Runs whose calls all meet a condition.  What user code calls is a parameter of
a run; `guarded P call` are the same calls, except that the run is broken off at
the first one that is made in a state without `P`.

* `unless_srunnerRunTagged` — calls that do the same unless they stop for a
  reason make runs that do the same unless they stop for it.
* `srunnerRunTagged_of_guarded` — a run that is not broken off is the run of any
  calls that do the same wherever `P` holds: a run depends on the calls that it
  makes, and on nothing else of them.
-/

namespace LibCheck

open Prog

variable {L : Type → Type} {β ν : Type}

/-! ## calls that do the same unless they stop -/

/-- Where a program returns that does the same unless it stops, the other one does. -/
theorem Prog.Unless.ok {ε σ α : Type} {e : ε} {y y' : EStateM ε σ α} (h : Unless e y y') {s s' : σ}
    {a : α} (hy : y s = .ok a s') : y' s = .ok a s' := by
  rcases h s with ⟨t, ht⟩ | heq
  · cases ht.symm.trans hy
  · exact heq.symm.trans hy

/-- A process stops as its forked child does, if the child is not ended by an
exit or a signal. -/
theorem unless_forkChild {x : Ctx} {p q : RunM L β ν Unit} (h : Unless .brokenOff p q) :
    Unless .brokenOff (forkChild x p) (forkChild x q) := by
  intro s
  simp only [forkChild]
  rcases h (s.onProc fun q => { q with killIn := x.env.kill s.now }) with ⟨c, hc⟩ | heq
  · rw [hc]
    exact .inl ⟨_, rfl⟩
  · rw [heq]
    exact .inr rfl

/-- A loop stops where one of its rounds does. -/
theorem unless_loopFrom {body body' : Int → RunM L β ν Unit}
    (h : ∀ i, Unless .brokenOff (body i) (body' i)) (i : Int) (n : Nat) :
    Unless .brokenOff (loopFrom body i n) (loopFrom body' i n) := by
  induction n generalizing i with
  | zero => exact Unless.refl _
  | succ n ih => exact Unless.bind (h i) fun _ => ih (i + 1)

/-- A function that `longjmp` may leave. -/
theorem unless_protect {x : Ctx} {f f' : RunM L β ν Bool} (h : Unless .brokenOff f f') :
    Unless .brokenOff (protect x f) (protect x f') :=
  Unless.bind (Unless.refl _) fun _ => h

/-- A function that no `longjmp` leaves. -/
theorem unless_unprotected {f f' : RunM L β ν Bool} (h : Unless .brokenOff f f') :
    Unless .brokenOff (unprotected f) (unprotected f') :=
  Unless.bind h fun _ => Unless.refl _

/-- Walks over lists do the same if their bodies do. -/
def WalksAlike (x : Ctx) (L : Type → Type) (β ν : Type) [Lists L] : Prop :=
  ∀ {α : Type} (r : LRef) {body body' : r.Elem ν → RunM L β ν (Option α)},
    (∀ f, Unless .brokenOff (body f) (body' f)) →
      Unless .brokenOff (forList x r body) (forList x r body')

/-- Walks over the lists of the program, whose cursor moves, do. -/
theorem walksAlike_ckList (x : Ctx) : WalksAlike x CkList β ν :=
  fun _ _ _ h => Unless.forEach _ _ _ h

/-- Walks over the lists of the abstract machine do. -/
theorem walksAlike_list (x : Ctx) : WalksAlike x List β ν :=
  fun _ _ _ h s => Unless.findSomeM h _ s

section

variable [Wire β] {x : Ctx} {call call' : ν → RunM L β ν Unit}
  (hcall : ∀ c, Unless .brokenOff (call c) (call' c))
include hcall

/-- User functions do the same unless they stop: the induction is on their steps. -/
theorem unless_runFun (acts : List (Act ν)) :
    Unless .brokenOff (runFun x call acts) (runFun x call' acts) := by
  induction acts with
  | nil => exact Unless.refl _
  | cons act acts ih =>
      cases act with
      | markPoint loc => exact Unless.bind (Unless.refl _) fun _ => ih
      | assertFailed loc expr msg => exact Unless.refl _
      | exit status => exact Unless.refl _
      | raise sig => exact Unless.refl _
      | call c => exact Unless.bind (hcall c) fun _ => ih

/-- A fixture differs in its function only. -/
theorem unless_callFixture (fl : FixtureList) (f : Fixture ν) :
    Unless .brokenOff (callFixture x call fl f) (callFixture x call' fl f) := by
  refine Unless.bind (Unless.refl _) fun _ => Unless.bind (Unless.refl _) fun now => ?_
  exact unless_runFun hcall (f.sfun.acts now)

/-- A test differs in its function only; the messages before it are the same. -/
theorem unless_callTest (tfun : TF ν) (i : Int) :
    Unless .brokenOff (callTest x call tfun i) (callTest x call' tfun i) := by
  refine Unless.bind (Unless.refl _) fun _ => Unless.bind (Unless.refl _) fun _ => ?_
  refine Unless.bind (Unless.refl _) fun _ => Unless.bind (Unless.refl _) fun now => ?_
  exact unless_runFun hcall (tfun.ttest.fn i now)

/-- A setup, in both modes. -/
theorem unless_runSetup (fl : FixtureList) (usage : ForkStatus) (tname sname : CStr)
    (f : Fixture ν) :
    Unless .brokenOff (runSetup x call fl usage tname sname f)
      (runSetup x call' fl usage tname sname f) := by
  have hfixture := unless_callFixture (x := x) hcall fl f
  refine Unless.ite ?nofork ?fork
  case nofork =>
    refine Unless.bind (Unless.refl _) fun _ => ?_
    -- the result is received in the same way
    exact Unless.bind (unless_protect hfixture) fun _ => Unless.refl _
  case fork => exact Unless.bind (unless_unprotected hfixture) fun _ => Unless.refl _

/-- A teardown, in both modes. -/
theorem unless_runTeardown (fl : FixtureList) (usage : ForkStatus) (f : Fixture ν) :
    Unless .brokenOff (runTeardown x call fl usage f) (runTeardown x call' fl usage f) := by
  have hfixture := unless_callFixture (x := x) hcall fl f
  refine Unless.bind (Unless.refl _) fun _ => Unless.ite ?nofork ?fork
  case nofork => exact Unless.bind (unless_protect hfixture) fun _ => Unless.refl _
  case fork => exact Unless.bind (unless_unprotected hfixture) fun _ => Unless.refl _

variable [Lists L] (hwalk : WalksAlike x L β ν)
include hwalk

/-- The setups of a test case walk over their list. -/
theorem unless_srunnerRunSetup (fl : FixtureList) (tc : TCaseId) (usage : ForkStatus)
    (tname sname : CStr) :
    Unless .brokenOff (srunnerRunSetup x call fl tc usage tname sname)
      (srunnerRunSetup x call' fl tc usage tname sname) :=
  Unless.bind (Unless.refl _) fun _ => hwalk _ (unless_runSetup hcall fl usage tname sname)

/-- The checked setups. -/
theorem unless_tcaseRunCheckedSetup (tc : TCaseId) :
    Unless .brokenOff (tcaseRunCheckedSetup x call tc) (tcaseRunCheckedSetup x call' tc) := by
  refine Unless.bind (Unless.refl _) fun _ => Unless.bind (Unless.refl _) fun _ => ?_
  exact unless_srunnerRunSetup hcall hwalk _ _ _ _ _

/-- The teardowns of a test case walk over their list. -/
theorem unless_srunnerRunTeardown (fl : FixtureList) (tc : TCaseId) (usage : ForkStatus) :
    Unless .brokenOff (srunnerRunTeardown x call fl tc usage)
      (srunnerRunTeardown x call' fl tc usage) :=
  Unless.bind (hwalk _ (unless_runTeardown hcall fl usage)) fun _ => Unless.refl _

/-- A test in the same process: a setup that fails keeps it from being called. -/
theorem unless_tcaseRunTfunNofork (tc : TCaseId) (tfun : TF ν) (i : Int) :
    Unless .brokenOff (tcaseRunTfunNofork x call tc tfun i)
      (tcaseRunTfunNofork x call' tc tfun i) := by
  refine Unless.bind (unless_tcaseRunCheckedSetup hcall hwalk tc) fun r => ?_
  cases r with
  | some tr => exact Unless.refl _
  | none =>
      refine Unless.bind (unless_protect (unless_callTest hcall tfun i)) fun _ => ?_
      exact Unless.bind (unless_srunnerRunTeardown hcall hwalk _ _ _) fun _ => Unless.refl _

/-- The child of a test: its setups, the test, and its teardowns. -/
theorem unless_testProcess (tc : TCaseId) (tfun : TF ν) (i : Int) :
    Unless .brokenOff (testProcess x call tc tfun i) (testProcess x call' tc tfun i) := by
  refine Unless.bind (unless_tcaseRunCheckedSetup hcall hwalk tc) fun _ => ?_
  refine Unless.bind (unless_unprotected (unless_callTest hcall tfun i)) fun _ => ?_
  exact Unless.bind (unless_srunnerRunTeardown hcall hwalk _ _ _) fun _ => Unless.refl _

/-- A test, in the mode of its runner. -/
theorem unless_tcaseRunTfun (tc : TCaseId) (tfun : TF ν) (i : Int) :
    Unless .brokenOff (tcaseRunTfun x call tc tfun i) (tcaseRunTfun x call' tc tfun i) := by
  refine Unless.bind (Unless.refl _) fun fstat => ?_
  cases fstat with
  | fork =>
      exact Unless.bind (unless_forkChild (unless_testProcess hcall hwalk tc tfun i)) fun _ =>
        Unless.refl _
  | nofork => exact unless_tcaseRunTfunNofork hcall hwalk tc tfun i
  | getenv => exact Unless.refl _

/-- An iteration; its events are logged in the same way. -/
theorem unless_runIteration (tc : TCaseId) (tfun : TF ν) (i : Int) :
    Unless .brokenOff (runIteration x call tc tfun i) (runIteration x call' tc tfun i) := by
  refine Unless.bind (Unless.refl _) fun _ => Unless.bind (Unless.refl _) fun _ => ?_
  refine Unless.bind (Unless.refl _) fun _ => ?_
  exact Unless.bind (unless_tcaseRunTfun hcall hwalk tc tfun i) fun _ => Unless.refl _

/-- The tests of a test case with their iterations. -/
theorem unless_srunnerIterateTcaseTfuns (tc : TCaseId) :
    Unless .brokenOff (srunnerIterateTcaseTfuns x call tc)
      (srunnerIterateTcaseTfuns x call' tc) := by
  refine Unless.bind (hwalk _ fun tfun => ?_) fun _ => Unless.refl _
  exact Unless.bind (unless_loopFrom (unless_runIteration hcall hwalk tc tfun) _ _) fun _ =>
    Unless.refl _

/-- The unchecked setups. -/
theorem unless_srunnerRunUncheckedSetup (tc : TCaseId) :
    Unless .brokenOff (srunnerRunUncheckedSetup x call tc)
      (srunnerRunUncheckedSetup x call' tc) := by
  refine Unless.bind (Unless.refl _) fun _ => Unless.bind (Unless.refl _) fun _ => ?_
  exact Unless.bind (unless_srunnerRunSetup hcall hwalk _ _ _ _ _) fun _ => Unless.refl _

/-- A test case: its tests run if its unchecked setups pass. -/
theorem unless_srunnerRunTcase (tc : TCaseId) :
    Unless .brokenOff (srunnerRunTcase x call tc) (srunnerRunTcase x call' tc) := by
  refine Unless.bind (Unless.refl _) fun _ => Unless.bind (Unless.refl _) fun _ => ?_
  refine Unless.bind (unless_srunnerRunUncheckedSetup hcall hwalk tc) fun _ =>
    Unless.ite ?_ (Unless.refl _)
  refine Unless.bind (unless_srunnerIterateTcaseTfuns hcall hwalk tc) fun _ => ?_
  refine Unless.bind (Unless.refl _) fun _ => Unless.bind (Unless.refl _) fun _ => ?_
  exact unless_srunnerRunTeardown hcall hwalk _ _ _

/-- A suite: its test cases that are selected. -/
theorem unless_iterateSuite (a : RunArgs) (su : SuiteId) :
    Unless .brokenOff (iterateSuite x call a su) (iterateSuite x call' a su) := by
  refine Unless.bind (Unless.refl _) fun _ => Unless.ite ?_ (Unless.refl _)
  refine Unless.bind (Unless.refl _) fun _ =>
    Unless.bind (hwalk _ fun tc => ?_) fun _ => Unless.refl _
  refine Unless.bind (Unless.refl _) fun _ => Unless.ite ?_ (Unless.refl _)
  exact Unless.bind (unless_srunnerRunTcase hcall hwalk tc) fun _ => Unless.refl _

/-- All suites. -/
theorem unless_srunnerIterateSuites (a : RunArgs) :
    Unless .brokenOff (srunnerIterateSuites x call a) (srunnerIterateSuites x call' a) := by
  refine Unless.bind (Unless.refl _) fun _ => Unless.bind (Unless.refl _) fun _ => ?_
  refine Unless.bind (hwalk _ fun su => ?_) fun _ => Unless.refl _
  exact Unless.bind (unless_iterateSuite hcall hwalk _ su) fun _ => Unless.refl _

/-- Calls that do the same unless they stop make runs that do the same unless
they stop. -/
theorem unless_srunnerRunTagged (a : RunArgs) :
    Unless .brokenOff (srunnerRunTagged x call a) (srunnerRunTagged x call' a) := by
  refine Unless.bind (Unless.refl _) fun _ => Unless.bind (Unless.refl _) fun _ => ?_
  exact Unless.bind (unless_srunnerIterateSuites hcall hwalk _) fun _ => Unless.refl _

end

/-! ## guarded calls -/

/-- The calls that are made in a state with `P`; at the first other one the run
is broken off. -/
def guarded (P : ν → St L β ν → Prop) [∀ c s, Decidable (P c s)] (call : ν → RunM L β ν Unit) :
    ν → RunM L β ν Unit :=
  fun c s => if P c s then call c s else .error .brokenOff s

/-- Guarded calls keep what the calls keep. -/
theorem keeps_guarded {v : St L β ν → γ} {P : ν → St L β ν → Prop} [∀ c s, Decidable (P c s)]
    {call : ν → RunM L β ν Unit} {c : ν} (h : Keeps v (call c)) : Keeps v (guarded P call c) := by
  intro w s hs
  by_cases hP : P c s
  · rw [guarded, if_pos hP]
    exact h w s hs
  · rw [guarded, if_neg hP]
    trivial

/-- Guarded calls agree if the calls and the guards do. -/
theorem sim_guarded {L' : Type → Type} {β' : Type} {R : St L β ν → St L' β' ν → Prop}
    {P : ν → St L β ν → Prop} [∀ c s, Decidable (P c s)] {Q : ν → St L' β' ν → Prop}
    [∀ c t, Decidable (Q c t)] {call : ν → RunM L β ν Unit} {call' : ν → RunM L' β' ν Unit} {c : ν}
    (hPQ : ∀ s t, R s t → (P c s ↔ Q c t)) (h : Sim R (call c) (call' c)) :
    Sim R (guarded P call c) (guarded Q call' c) := by
  intro s t hst
  by_cases hP : P c s
  · rw [guarded, guarded, if_pos hP, if_pos ((hPQ s t hst).mp hP)]
    exact h s t hst
  · rw [guarded, guarded, if_neg hP, if_neg fun hQ => hP ((hPQ s t hst).mpr hQ)]
    exact .error _ hst

/-- **A run depends on the calls that it makes**: if all of them are made in
states with `P`, then other calls that do the same in such states make the same
run. -/
theorem srunnerRunTagged_of_guarded [Lists L] [Wire β] {x : Ctx} (hwalk : WalksAlike x L β ν)
    {P : ν → St L β ν → Prop} [∀ c s, Decidable (P c s)] {call call' : ν → RunM L β ν Unit}
    (heq : ∀ c s, P c s → call' c s = call c s) {a : RunArgs} {s : St L β ν}
    (h : ∀ t, srunnerRunTagged x (guarded P call) a s ≠ .error .brokenOff t) :
    srunnerRunTagged x (guarded P call) a s = srunnerRunTagged x call' a s := by
  have hcall : ∀ c, Unless .brokenOff (guarded P call c) (call' c) := by
    intro c s
    by_cases hP : P c s
    · exact .inr (by rw [guarded, if_pos hP, heq c s hP])
    · exact .inl ⟨s, if_neg hP⟩
  rcases unless_srunnerRunTagged hcall hwalk a s with ⟨t, ht⟩ | hrun
  · exact absurd ht (h t)
  · exact hrun

end LibCheck
