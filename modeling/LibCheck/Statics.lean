import LibCheck.Guarded
import LibCheck.Pending

/-!
# LibCheck.Statics

Static variables of the library that outlive a function: the counter of the TAP
logger, the signal dispositions and those to be restored.

User code changes them only through the runs that it makes, and a forked test
not at all.  So a part of them is left alone by all fixtures and tests if the
runs that are made in the process of the runner leave it alone
(`runSparing`).

* `testClosed_watch` — what user code does in the process of the runner.
* `untouched_tcaseRunTfun` — a test, in whatever process it runs.
* `Indifferent.srunnerIterateSuites` — what is said of the run and of these variables
  survives all fixtures and tests.
* `srunnerRunTagged_runSparing` — such a run of the code and that of the abstract machine.
-/

namespace LibCheck

open Prog

/-- The static variables at hand. -/
abbrev Statics := Nat × SigActions × SigActions

def Proc.statics (p : Proc β) : Statics := (p.numTestsRun, p.sigs, p.oldSigs)

/-- What only a run itself changes, and the part `g` of the static variables. -/
def St.watch {γ ν : Type} (g : Statics → γ) (s : St List SendMsg ν) :
    (Heap List ν × SRunner List × When) × γ :=
  (s.memory, g s.proc.statics)

/-! ## what leaves them alone -/

section

variable {ν γ : Type} {x : Ctx} {g : Statics → γ}

/-- A change of the rest of the process. -/
theorem keeps_watch_update {f : Proc SendMsg → Proc SendMsg} (h : ∀ p, (f p).statics = p.statics) :
    Keeps (St.watch g) (update (St.onProc f) : RunM List SendMsg ν Unit) := by
  refine Keeps.update fun s => ?_
  simp only [St.watch, St.memory, St.onProc, h]

theorem keeps_watch_killPoint : Keeps (St.watch g) (killPoint : RunM List SendMsg ν Unit) := by
  refine Keeps.bind (Keeps.read _) fun k => ?_
  match k with
  | none => exact Keeps.pure ()
  | some (0, sig) => exact Keeps.throw _
  | some (n + 1, sig) => exact keeps_watch_update fun _ => rfl

theorem keeps_watch_sendMsg (m : SendMsg) :
    Keeps (St.watch g) (sendMsg x m : RunM List SendMsg ν Unit) := by
  refine Keeps.bind keeps_watch_killPoint fun _ => Keeps.bind (Keeps.read _) fun _ =>
    Keeps.ite (Keeps.throw _) ?_
  cases (Wire.ppack x.cfg m : Except EPrintf (List SendMsg)) with
  | error e => exact Keeps.throw _
  | ok data =>
      refine keeps_watch_update fun p => ?_
      rw [Proc.fwrite_eq]
      rfl

theorem keeps_watch_receiveTestResult (w : Bool) :
    Keeps (St.watch g) (receiveTestResult x w : RunM List SendMsg ν TestResult) := by
  intro c s hs
  rw [receiveTestResult_apply]
  generalize (s.proc.getPipe.map fun f => rcvOutcome (Wire.punpack x.cfg f.content)) = r
  match r with
  | none => trivial
  | some (.error e) => trivial
  | some (.ok rmsg) =>
      refine Eq.trans ?_ hs
      have hrenew : s.proc.renew.statics = s.proc.statics := by
        simp only [Proc.renew]
        split <;> rfl
      simp only [St.watch, St.memory, St.onProc, hrenew]

/-- What a child does to them is lost. -/
theorem keeps_watch_forkChild (p : RunM List SendMsg ν Unit) :
    Keeps (St.watch g) (forkChild x p) := by
  intro c s hs
  simp only [forkChild]
  cases p (s.onProc fun q => { q with killIn := x.env.kill s.now }) with
  | ok a c => exact hs
  | error e c =>
      cases e with
      | exited code => exact hs
      | signaled sig => exact hs
      | undefined => trivial
      | diverged => trivial
      | brokenOff => trivial

/-- User functions leave them at `w`, if the runs that they make do. -/
theorem testClosed_watch {w : (Heap List ν × SRunner List × When) × γ}
    {call : ν → RunM List SendMsg ν Unit}
    (hcall : ∀ c, Maintains (fun s => s.watch g = w) (fun _ _ => True) (call c)) :
    TestClosed x call fun {α} (y : RunM List SendMsg ν α) =>
      Maintains (fun s => s.watch g = w) (fun _ _ => True) y :=
  { seqClosed_maintains fun _ _ _ _ => trivial with
    forList := fun _ _ hb s hs => Maintains.findSomeM (fun f _ => hb f) s hs
    fork := fun p _ => keeps_watch_forkChild p w
    kill := keeps_watch_killPoint w
    send := fun m => keeps_watch_sendMsg m w
    receive := fun b => keeps_watch_receiveTestResult b w
    assertion := fun _ => keeps_watch_update (fun _ => rfl) w
    fixture := fun _ _ => keeps_watch_update (fun _ => rfl) w
    body := fun _ _ => keeps_watch_update (fun _ => rfl) w
    setjmp := keeps_watch_update (fun _ => rfl) w
    alarm := fun _ => keeps_watch_update (fun _ => rfl) w
    call := hcall }

end

/-! ## the runs of user functions -/

/-- The runs that a user function makes. -/
def nestedRuns : List (Act ν) → List ν
  | .markPoint _ :: acts => nestedRuns acts
  | .call c :: acts => c :: nestedRuns acts
  | _ => []

/-- A forked test is being run, or what is called for it: not in the process of the runner. -/
def InForkedTest {L : Type → Type} {β ν : Type} (x : Ctx) (s : St L β ν) : Prop :=
  forkStatusOf x.env s.sr.fstat = .fork ∧ s.now.test ≠ 0

instance {L : Type → Type} {β ν : Type} (x : Ctx) (s : St L β ν) : Decidable (InForkedTest x s) :=
  inferInstanceAs (Decidable (_ ∧ _))

/-- The runs that user code makes, of which only good ones may be made in the process of the
runner: at the first other one the run is broken off. -/
def runSparing {L : Type → Type} {β : Type} [Lists L] [Wire β] (x : Ctx)
    (good : NestedRun → Bool) : NestedRun → RunM L β NestedRun Unit :=
  guarded (fun c s => good c = true ∨ InForkedTest x s) (runNested x)

section

variable {γ : Type} {x : Ctx} {g : Statics → γ} {good : NestedRun → Bool}
  {s s' : St List SendMsg NestedRun}

theorem unless_runSparing (good : NestedRun → Bool) (c : NestedRun) :
    Unless .brokenOff (runSparing x good c : RunM List SendMsg NestedRun Unit) (runNested x c) := by
  intro s
  by_cases h : good c = true ∨ InForkedTest x s
  · exact .inr (if_pos h)
  · exact .inl ⟨s, if_neg h⟩

/-- From `s` to `s'` only user code has run, and it has left the part `g` of the static variables
alone. -/
structure Untouched (x : Ctx) (g : Statics → γ) (s s' : St List SendMsg NestedRun) : Prop extends
    Silent x s s' where
  statics : g s'.proc.statics = g s.proc.statics

theorem inForkedTest_congr (h : s'.memory = s.memory) : InForkedTest x s' ↔ InForkedTest x s := by
  have hsr : s'.sr = s.sr := congrArg (fun m => m.2.1) h
  have hnow : s'.now = s.now := congrArg (fun m => m.2.2) h
  rw [InForkedTest, InForkedTest, hsr, hnow]

/-- A change of the fork status. -/
theorem untouched_fstat (fstat : ForkStatus) (s : St List SendMsg NestedRun) :
    Untouched x g s (s.onProc fun p => { p with fstat := fstat }) :=
  ⟨silent_fstat x fstat s, rfl⟩

theorem Untouched.trans {s'' : St List SendMsg NestedRun} (h : Untouched x g s s')
    (h' : Untouched x g s' s'') : Untouched x g s s'' :=
  ⟨h.toSilent.trans h'.toSilent, h'.statics.trans h.statics⟩

variable (hgood : ∀ c, good c = true →
  Keeps (fun s => g s.proc.statics) (runNested x c : RunM List SendMsg NestedRun Unit))
include hgood

/-- A run that is made in the process of the runner is a good one. -/
theorem watch_runSparing (hs : ¬ InForkedTest x s) (c : NestedRun) :
    Maintains (fun t => t.watch g = s.watch g) (fun _ _ => True)
      (runSparing x good c : RunM List SendMsg NestedRun Unit) := by
  intro t ht
  have hmem : t.memory = s.memory := congrArg Prod.fst ht
  cases hres : (runSparing x good c : RunM List SendMsg NestedRun Unit) t with
  | error e t' => trivial
  | ok u t' =>
      have hrun := (unless_runSparing good c).ok hres
      have hc : good c = true := by
        by_contra hc
        have hbroken : (runSparing x good c : RunM List SendMsg NestedRun Unit) t =
            .error .brokenOff t :=
          if_neg (not_or.mpr ⟨hc, fun hin => hs ((inForkedTest_congr hmem).mp hin)⟩)
        cases hbroken.symm.trans hres
      exact Prod.ext (((keeps_runNested x c).of_ok hrun).trans hmem)
        (((hgood c hc).of_ok hrun).trans (congrArg Prod.snd ht))

/-- User code in the process of the runner. -/
theorem untouched_of_closed {y y' : RunM List SendMsg NestedRun α} {a : α}
    (hs : ¬ InForkedTest x s) (hyy : Unless .brokenOff y y')
    (hy : ∀ P : ∀ {α : Type}, RunM List SendMsg NestedRun α → Prop,
      TestClosed x (runSparing x good) P → P y)
    (hy' : ∀ P : ∀ {α : Type}, RunM List SendMsg NestedRun α → Prop,
      TestClosed x (runNested x) P → P y') (h : y s = .ok a s') : Untouched x g s s' where
  toSilent := silent_of_closed hy' (hyy.ok h)
  statics := congrArg Prod.snd
    ((hy _ (testClosed_watch (watch_runSparing hgood hs))).of_ok (s := s) rfl h)

theorem untouched_srunnerRunSetup {fl : FixtureList} {tc : TCaseId} {usage : ForkStatus}
    {tname sname : CStr} {r : Option TestResult} (hs : ¬ InForkedTest x s)
    (h : srunnerRunSetup x (runSparing x good) fl tc usage tname sname s = .ok r s') :
    Untouched x g s s' :=
  untouched_of_closed hgood hs
    (unless_srunnerRunSetup (unless_runSparing good) (walksAlike_list x) fl tc usage tname sname)
    (fun _ hP => hP.srunnerRunSetup fl tc usage tname sname)
    (fun _ hP => hP.srunnerRunSetup fl tc usage tname sname) h

theorem untouched_srunnerRunTeardown {fl : FixtureList} {tc : TCaseId} {usage : ForkStatus}
    (hs : ¬ InForkedTest x s)
    (h : srunnerRunTeardown x (runSparing x good) fl tc usage s = .ok () s') : Untouched x g s s' :=
  untouched_of_closed hgood hs
    (unless_srunnerRunTeardown (unless_runSparing good) (walksAlike_list x) fl tc usage)
    (fun _ hP => hP.srunnerRunTeardown fl tc usage)
    (fun _ hP => hP.srunnerRunTeardown fl tc usage) h

/-- A test: what it does in a process of its own does not matter. -/
theorem untouched_tcaseRunTfun {tc : TCaseId} {tfun : TF NestedRun} {i : Int} {tr : TestResult}
    (h : tcaseRunTfun x (runSparing x good) tc tfun i s = .ok tr s') : Untouched x g s s' := by
  have hunless : Unless .brokenOff (tcaseRunTfun x (runSparing x good) tc tfun i)
      (tcaseRunTfun x (runNested x) tc tfun i) :=
    unless_tcaseRunTfun (unless_runSparing good) (walksAlike_list x) tc tfun i
  by_cases hs : InForkedTest x s
  · refine ⟨silent_of_closed (fun _ hP => hP.tcaseRunTfun tc tfun i) (hunless.ok h), ?_⟩
    rw [tcaseRunTfun, srunnerForkStatus, read_bind, hs.1] at h
    have hkeeps : Keeps (St.watch g) (tcaseRunTfunFork x (runSparing x good) tc tfun i) :=
      Keeps.bind (keeps_watch_forkChild _) fun _ => Keeps.bind (Keeps.read _) fun _ =>
        Keeps.bind (keeps_watch_update fun _ => rfl) fun _ => Keeps.bind (Keeps.read _) fun _ =>
          Keeps.bind (keeps_watch_receiveTestResult _) fun _ => Keeps.bind (Keeps.read _) fun _ =>
            Keeps.pure _
    exact congrArg Prod.snd (hkeeps.of_ok h)
  · exact untouched_of_closed hgood hs hunless (fun _ hP => hP.tcaseRunTfun tc tfun i)
      (fun _ hP => hP.tcaseRunTfun tc tfun i) h

end

/-! ## test cases and suites -/

/-- What is indifferent to user code that leaves the part `g` of the static variables alone, and
to all else that a run does between its first and its last event. -/
structure Indifferent {γ : Type} (x : Ctx) (g : Statics → γ)
    (I : St List SendMsg NestedRun → Prop) : Prop where
  untouched : ∀ {s s'}, I s → Untouched x g s s' → I s'
  addFailure : ∀ tr s, I s → I (endState (srunnerAddFailure tr s))
  occasion : ∀ (f : When → When) s, I s → I { s with now := f s.now }
  observe : ∀ o s, (∀ c, o ≠ .log c) → I s → I (s.onProc (Proc.observe x.lvl o))
  tagLst : ∀ a l s, I s → I (s.setList (.tagLst a) l)
  event : ∀ obj evt, InnerEvent obj evt →
    Maintains I (fun _ _ => True) (srunnerSendEvt x obj evt)

namespace Indifferent

variable {γ : Type} {x : Ctx} {g : Statics → γ} {good : NestedRun → Bool}
  {I : St List SendMsg NestedRun → Prop} (h : Indifferent x g I)
  (hgood : ∀ c, good c = true →
    Keeps (fun s => g s.proc.statics) (runNested x c : RunM List SendMsg NestedRun Unit))
include h hgood

theorem iterationSteps : IterationSteps x (runSparing x good) fun {α} y =>
    Maintains (α := α) I (fun _ _ => True) y :=
  { seqClosed_maintains fun _ _ _ _ => trivial with
    forList := fun _ _ hb s hs => Maintains.findSomeM (fun f _ => hb f) s hs
    test := fun tc tfun i s hs => by
      cases hres : tcaseRunTfun x (runSparing x good) tc tfun i s with
      | error e s' => trivial
      | ok tr s' => exact h.untouched hs (untouched_tcaseRunTfun hgood hres)
    addFailure := fun tr _ s hs => h.addFailure tr s hs
    occasion := fun f => Maintains.update (h.occasion f)
    iter := fun tc tname i => Maintains.update fun s hs =>
      h.observe (.iter tc tname i) s (fun _ he => nomatch he) hs
    event := h.event }

/-- The unchecked setups of a test case. -/
theorem srunnerRunUncheckedSetup {tc : TCaseId} {b : Bool} {s s' : St List SendMsg NestedRun}
    (hs : I s) (hnow : s.now.test = 0)
    (hrun : srunnerRunUncheckedSetup x (runSparing x good) tc s = .ok b s') : I s' := by
  rw [LibCheck.srunnerRunUncheckedSetup, setForkStatus, update_bind, read_bind] at hrun
  obtain ⟨r, s1, hset, hrun⟩ := bind_eq_ok.mp hrun
  rw [srunnerForkStatus, read_bind, setForkStatus, update_bind] at hrun
  have h1 := (untouched_fstat .nofork s).trans
    (untouched_srunnerRunSetup hgood (fun hin => hin.2 hnow) hset)
  have h2 : I (s1.onProc fun p => { p with fstat := forkStatusOf x.env s1.sr.fstat }) :=
    h.untouched hs (h1.trans (untouched_fstat _ s1))
  cases r with
  | none =>
      cases hrun
      exact h2
  | some tr =>
      simp only at hrun
      split at hrun
      · cases hrun
        exact h.addFailure tr _ h2
      · cases hrun
        exact h2

/-- A test case. -/
theorem srunnerRunTcase (tc : TCaseId) :
    Maintains I (fun _ _ => True) (srunnerRunTcase x (runSparing x good) tc) := by
  intro s hs
  cases hres : LibCheck.srunnerRunTcase x (runSparing x good) tc s with
  | error e s' => trivial
  | ok u s' =>
      rw [LibCheck.srunnerRunTcase, update_bind, update_bind, runTcase] at hres
      obtain ⟨b, s1, hset, hres⟩ := bind_eq_ok.mp hres
      have h0 := h.observe (.tcase tc) _ (fun _ he => nomatch he)
        (h.occasion (fun now => ⟨now.tcrun + 1, 0⟩) s hs)
      have h1 : I s1 := h.srunnerRunUncheckedSetup hgood h0 rfl hset
      cases b with
      | false =>
          cases hres
          exact h1
      | true =>
          obtain ⟨_, s2, hiter, hres⟩ := bind_eq_ok.mp hres
          have h2 : I s2 :=
            Maintains.of_ok ((h.iterationSteps hgood).srunnerIterateTcaseTfuns tc) h1 hiter
          rw [update_bind, srunnerRunUncheckedTeardown, srunnerForkStatus, read_bind] at hres
          exact h.untouched (h.occasion (fun now => { now with test := 0 }) s2 h2)
            (untouched_srunnerRunTeardown hgood (fun hin => hin.2 rfl) hres)

/-- The loops over the suites. -/
theorem srunnerIterateSuites (a : RunArgs) :
    Maintains I (fun _ _ => True) (srunnerIterateSuites x (runSparing x good) a) := by
  have hplan : PlanSteps x (runSparing x good) fun {α} y =>
      Maintains (α := α) I (fun _ _ => True) y :=
    { seqClosed_maintains fun _ _ _ _ => trivial with
      forList := fun _ _ hb s hs => Maintains.findSomeM (fun f _ => hb f) s hs
      event := h.event
      tagLst := fun a l => Maintains.update (h.tagLst a l)
      run := h.srunnerRunTcase hgood }
  exact hplan.srunnerIterateSuites a

end Indifferent

/-! ## the code -/

/-- A run in which only good runs are made in the process of the runner, and that of the abstract
machine. -/
theorem srunnerRunTagged_runSparing {x : Ctx} {good : NestedRun → Bool} {a : RunArgs}
    {s s' : St CkList UInt8 NestedRun} {t : St List SendMsg NestedRun} (hst : StRel x.cfg s t)
    (hgood : ∀ s', srunnerRunTagged x (runSparing x good) a s ≠ .error .brokenOff s')
    (h : srunnerRunTagged x (runNested x) a s = .ok () s') :
    ∃ t', srunnerRunTagged x (runSparing x good) a t = .ok () t' ∧ StRel x.cfg s' t' := by
  have hguard : srunnerRunTagged x (runSparing x good) a s = srunnerRunTagged x (runNested x) a s :=
    srunnerRunTagged_of_guarded (walksAlike_ckList x) (fun _ _ _ => rfl) hgood
  have hsim : ∀ c, Sim (StRel x.cfg) (runSparing x good c : RunM CkList UInt8 NestedRun Unit)
      (runSparing x good c) := by
    refine fun c => sim_guarded (fun s t hst => ?_) (sim_runNested x c)
    cases hst with
    | mk _ _ => exact Iff.rfl
  exact (sim_srunnerRunTagged (fun c => keeps_guarded (keeps_runNested x c)) hsim a).of_ok hst
    (hguard.trans h)

end LibCheck
