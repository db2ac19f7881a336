import LibCheck.Frame

/-!
# LibCheck.Closed

What a run can do, said once: a property of programs that is closed under
sequencing and holds of the primitive steps holds of every part of a run.

* `TestClosed` — the primitive steps of fixtures and tests: sending,
  receiving, user code, `setjmp`, a forked child.
* `CaseClosed` — moreover those of a test case around them: log events,
  results, the fork status, the occasion.
* `LogClosed`, `SuitesClosed`, `RunClosed` — those of logging, of the loops
  over suites and test cases, and of a whole run.

An invariant of runs is then an instance: only its primitive steps are to be
checked.  A program may use that a value was returned by another one
(`Returns`), so results can be known to be classified when they are stored.
-/

namespace LibCheck

open Prog

variable {L : Type → Type} {β ν : Type}

/-- The value `a` is a possible result of `y`. -/
def Returns (y : RunM L β ν α) (a : α) : Prop := ∃ s s', y s = .ok a s'

/-- The value of a sequence is one of its second part, after a value of the first one. -/
theorem returns_bind {y : RunM L β ν α} {f : α → RunM L β ν γ} (h : Returns (y >>= f) c) :
    ∃ a, Returns y a ∧ Returns (f a) c := by
  obtain ⟨s, s'', h⟩ := h
  obtain ⟨a, s', hy, hf⟩ := bind_eq_ok.mp h
  exact ⟨a, ⟨s, s', hy⟩, s', s'', hf⟩

/-- `pure` returns its value. -/
theorem returns_pure {a b : α} (h : Returns (pure a : RunM L β ν α) b) : b = a := by
  obtain ⟨s, s', h⟩ := h
  cases h
  rfl

/-! ## classified results -/

/-- A result with a verdict and a message. -/
def TestResult.Classified (tr : TestResult) : Prop :=
  (tr.rtype = .pass ∨ tr.rtype = .failure ∨ tr.rtype = .error) ∧ tr.msg ≠ none

/-- `set_nofork_info` gives a verdict and a message. -/
theorem classified_setNoforkInfo (tr : TestResult) : (setNoforkInfo tr).Classified := by
  unfold setNoforkInfo
  by_cases h : tr.msg = none
  · rw [if_pos h]
    exact ⟨.inl rfl, Option.some_ne_none _⟩
  · rw [if_neg h]
    exact ⟨.inr (.inl rfl), h⟩

/-- No callback ends the process over a classified result. -/
theorem lfunStop_classified {tr : TestResult} (htr : tr.Classified) (hname : tr.tcname ≠ none)
    (lfun : LFun) : lfunStop lfun (.result tr) = none := by
  have hrtype : tr.rtype ≠ .invalid := by
    rcases htr.1 with h | h | h <;> simp [h]
  cases lfun <;> simp [lfunStop, hrtype, hname, htr.2]

/-- An event that no callback ends the process over reaches all loggers. -/
theorem srunnerSendEvt_of_accepted {β ν : Type} {x : Ctx} (evt : ClEvent) {obj : LogObj}
    {s : St List β ν} (hlog : s.sr.loglst = true) (hobj : ∀ lfun, lfunStop lfun obj = none) :
    ∃ s', srunnerSendEvt x obj evt s = .ok () s' ∧ s'.sr = s.sr := by
  have hcall : ∀ lg, Maintains (fun t : St List β ν => t.sr = s.sr) (fun _ _ => False)
      (callLfun x lg evt obj) := by
    intro lg
    unfold callLfun
    rw [hobj]
    exact Maintains.bind (Maintains.update fun _ h => h) fun _ =>
      Maintains.bind (Maintains.read _) fun _ =>
        Maintains.bind (Maintains.update fun _ h => h) fun _ =>
          Maintains.bind (Maintains.read _) fun _ => Maintains.bind (Maintains.read _) fun _ =>
            Maintains.bind (Maintains.read _) fun _ => Maintains.bind (Maintains.read _) fun _ =>
              Maintains.bind (Maintains.update fun _ h => h) fun _ => Maintains.pure ()
  have hsend : Maintains (fun t : St List β ν => t.sr = s.sr) (fun _ _ => False)
      (srunnerSendEvt x obj evt) := by
    refine Maintains.bind (Maintains.bind_read fun t ht => ?_) fun _ => Maintains.pure ()
    simp only [ht, hlog, if_true]
    exact Maintains.findSomeM
      (fun lg _ => Maintains.bind (hcall lg) fun _ => Maintains.pure none) t ht
  have h := hsend s rfl
  cases hres : srunnerSendEvt x obj evt s with
  | ok u s' =>
      rw [hres] at h
      exact ⟨s', rfl, h⟩
  | error e s' =>
      rw [hres] at h
      exact h.elim

/-- Every wait status is classified by `set_fork_info`. -/
theorem classified_setForkInfo (cfg : Config) (alarm : Bool) (tr : TestResult)
    (status : WaitStatus) (signal : Int) (allowed : Int8) :
    (setForkInfo cfg alarm tr status signal allowed).Classified := by
  cases status with
  | signaled sig =>
      simp only [setForkInfo]
      split
      · split
        · exact ⟨.inr (.inr rfl), Option.some_ne_none _⟩
        · exact ⟨.inl rfl, Option.some_ne_none _⟩
      · split
        · exact ⟨.inr (.inr rfl), Option.some_ne_none _⟩
        · exact ⟨.inr (.inr rfl), Option.some_ne_none _⟩
  | exited code =>
      simp only [setForkInfo]
      split
      · split
        · exact ⟨.inl rfl, Option.some_ne_none _⟩
        · split
          · exact ⟨.inr (.inr rfl), Option.some_ne_none _⟩
          · next h => exact ⟨.inr (.inl rfl), h⟩
      · exact ⟨.inr (.inl rfl), Option.some_ne_none _⟩

/-- The verdict leaves the names and the iteration alone. -/
theorem setForkInfo_names (cfg : Config) (alarm : Bool) (tr : TestResult) (status : WaitStatus)
    (signal : Int) (allowed : Int8) :
    (setForkInfo cfg alarm tr status signal allowed).tcname = tr.tcname ∧
      (setForkInfo cfg alarm tr status signal allowed).tname = tr.tname ∧
      (setForkInfo cfg alarm tr status signal allowed).iter = tr.iter := by
  cases status with
  | signaled sig =>
      simp only [setForkInfo]
      split
      · split <;> simp
      · split <;> simp
  | exited code =>
      simp only [setForkInfo]
      split
      · split
        · simp
        · split <;> simp
      · simp

/-- So does `receive_result_info_nofork`. -/
theorem classified_receiveNofork [Wire β] {x : Ctx} {tcname tname : CStr} {iter : Int}
    {duration : Int32} {tr : TestResult}
    (h : Returns (receiveResultInfoNofork x tcname tname iter duration : RunM L β ν TestResult)
      tr) : tr.Classified := by
  obtain ⟨_, -, h⟩ := returns_bind h
  rw [returns_pure h]
  exact classified_setNoforkInfo _

/-! ## tests -/

/-- A property of programs that is closed under the ways to combine them. -/
structure SeqClosed (P : ∀ {α : Type}, RunM L β ν α → Prop) : Prop where
  pure : ∀ {α : Type} (a : α), P (pure a)
  throw : ∀ {α : Type} (e : Stop), e.Real → P (throw e : RunM L β ν α)
  read : ∀ {α : Type} (p : St L β ν → α), P (read p)
  bind : ∀ {α γ : Type} {y : RunM L β ν α} {f : α → RunM L β ν γ}, P y →
    (∀ a, Returns y a → P (f a)) → P (y >>= f)

/-- Both branches of a condition. -/
theorem SeqClosed.ite {P : ∀ {α : Type}, RunM L β ν α → Prop} {c : Prop} [Decidable c]
    {y z : RunM L β ν α} (hy : P y) (hz : P z) : P (if c then y else z) := by
  by_cases hc : c
  · rw [if_pos hc]
    exact hy
  · rw [if_neg hc]
    exact hz

/-- A failing assertion is observed, sends its messages, and leaves the function or the
process. -/
theorem SeqClosed.ckAssertFailed [Wire β] {x : Ctx} {P : ∀ {α : Type}, RunM L β ν α → Prop}
    (h : SeqClosed P) (hsend : ∀ m, P (sendMsg x m : RunM L β ν Unit)) {a : Assertion}
    (hobs : P (update (St.onProc (Proc.observe x.lvl (.assertFailed a))) : RunM L β ν Unit)) :
    P (ckAssertFailed x a.loc a.expr a.msg : RunM L β ν Unit) := by
  refine h.bind hobs fun _ _ => h.bind (hsend _) fun _ _ => h.bind (hsend _) fun _ _ => ?_
  refine h.bind (h.read _) fun _ _ => SeqClosed.ite (h.throw _ trivial) ?_
  exact h.bind (h.read _) fun _ _ => SeqClosed.ite (h.pure _) (h.throw _ trivial)

/-- The primitive steps of fixtures and tests. -/
structure TestClosed [Lists L] [Wire β] (x : Ctx) (call : ν → RunM L β ν Unit)
    (P : ∀ {α : Type}, RunM L β ν α → Prop) : Prop extends SeqClosed P where
  forList : ∀ {α : Type} (r : LRef) (body : r.Elem ν → RunM L β ν (Option α)),
    (∀ f, P (body f)) → P (forList x r body)
  fork : ∀ p : RunM L β ν Unit, P p → P (forkChild x p)
  kill : P (killPoint : RunM L β ν Unit)
  send : ∀ m, P (sendMsg x m : RunM L β ν Unit)
  receive : ∀ waserror, P (receiveTestResult x waserror : RunM L β ν TestResult)
  assertion : ∀ a, P (update (St.onProc (Proc.observe x.lvl (.assertFailed a))) : RunM L β ν Unit)
  fixture : ∀ fl addr,
    P (update (St.onProc (Proc.observe x.lvl (.fixture fl addr))) : RunM L β ν Unit)
  body : ∀ tname i, P (update (St.onProc (Proc.observe x.lvl (.body tname i))) : RunM L β ν Unit)
  setjmp : P (update (St.onProc fun p => { p with errorJmpBuffer := some x.lvl }) :
    RunM L β ν Unit)
  alarm : ∀ b, P (update (St.onProc fun p => { p with alarmReceived := b }) : RunM L β ν Unit)
  call : ∀ c, P (call c)

namespace TestClosed

variable [Lists L] [Wire β] {x : Ctx} {call : ν → RunM L β ν Unit}
  {P : ∀ {α : Type}, RunM L β ν α → Prop} (h : TestClosed x call P)
include h

/-- User functions have the property: the induction is on their steps. -/
theorem runFun (acts : List (Act ν)) : P (runFun x call acts) := by
  induction acts with
  | nil => exact h.pure _
  | cons act acts ih =>
      cases act with
      | markPoint loc => exact h.bind (h.send _) fun _ _ => ih
      | assertFailed loc expr msg =>
          exact h.bind (h.toSeqClosed.ckAssertFailed h.send (h.assertion ⟨loc, expr, msg⟩))
            fun _ _ => h.pure _
      | exit status => exact h.bind h.kill fun _ _ => h.throw _ trivial
      | raise sig => exact h.throw _ trivial
      | call c => exact h.bind (h.call c) fun _ _ => ih

/-- A fixture is observed and then called. -/
theorem callFixture (fl : FixtureList) (f : Fixture ν) : P (callFixture x call fl f) := by
  refine h.bind (h.fixture _ _) fun _ _ => h.bind (h.read _) fun now _ => ?_
  exact h.runFun (f.sfun.acts now)

/-- A test sends its context and its place, is observed, and then called. -/
theorem callTest (tfun : TF ν) (i : Int) : P (callTest x call tfun i) := by
  refine h.bind (h.send _) fun _ _ => h.bind (h.send _) fun _ _ => ?_
  refine h.bind (h.body _ _) fun _ _ => h.bind (h.read _) fun now _ => ?_
  exact h.runFun (tfun.ttest.fn i now)

/-- A function behind a `setjmp`. -/
theorem protect {f : RunM L β ν Bool} (hf : P f) : P (protect x f) := h.bind h.setjmp fun _ _ => hf

/-- A function without one; a `longjmp` out of it is undefined. -/
theorem unprotected {f : RunM L β ν Bool} (hf : P f) : P (unprotected f) :=
  h.bind hf fun _ _ => SeqClosed.ite (h.throw _ trivial) (h.pure _)

/-- The result is received first. -/
theorem receiveResultInfoNofork (tcname tname : CStr) (iter : Int) (duration : Int32) :
    P (receiveResultInfoNofork x tcname tname iter duration : RunM L β ν TestResult) :=
  h.bind (h.receive _) fun _ _ => h.pure _

/-- A setup, in both modes. -/
theorem runSetup (fl : FixtureList) (usage : ForkStatus) (tname sname : CStr) (f : Fixture ν) :
    P (runSetup x call fl usage tname sname f) := by
  have hfixture := h.callFixture fl f
  refine SeqClosed.ite ?nofork ?fork
  case nofork =>
    refine h.bind (h.send _) fun _ _ => h.bind (h.protect hfixture) fun _ _ => ?_
    exact h.bind (h.receiveResultInfoNofork _ _ _ _) fun _ _ => SeqClosed.ite (h.pure _) (h.pure _)
  case fork => exact h.bind (h.unprotected hfixture) fun _ _ => h.pure _

/-- A teardown, in both modes. -/
theorem runTeardown (fl : FixtureList) (usage : ForkStatus) (f : Fixture ν) :
    P (runTeardown x call fl usage f) := by
  have hfixture := h.callFixture fl f
  refine h.bind (h.send _) fun _ _ => SeqClosed.ite ?nofork ?fork
  case nofork =>
    exact h.bind (h.protect hfixture) fun _ _ => SeqClosed.ite (h.pure _) (h.pure _)
  case fork => exact h.bind (h.unprotected hfixture) fun _ _ => h.pure _

/-- The setups of a test case, in order. -/
theorem srunnerRunSetup (fl : FixtureList) (tc : TCaseId) (usage : ForkStatus)
    (tname sname : CStr) : P (srunnerRunSetup x call fl tc usage tname sname) :=
  h.bind (SeqClosed.ite (h.send _) (h.pure _)) fun _ _ => h.forList _ _ (h.runSetup fl usage _ _)

/-- The checked setups. -/
theorem tcaseRunCheckedSetup (tc : TCaseId) : P (tcaseRunCheckedSetup x call tc) :=
  h.bind (h.read _) fun _ _ => h.bind (h.read _) fun _ _ => h.srunnerRunSetup _ _ _ _ _

/-- The teardowns of a test case, in order. -/
theorem srunnerRunTeardown (fl : FixtureList) (tc : TCaseId) (usage : ForkStatus) :
    P (srunnerRunTeardown x call fl tc usage) :=
  h.bind (h.forList _ _ (h.runTeardown fl usage)) fun _ _ => h.pure _

/-- A test in the same process: it is not called if a setup fails. -/
theorem tcaseRunTfunNofork (tc : TCaseId) (tfun : TF ν) (i : Int) :
    P (tcaseRunTfunNofork x call tc tfun i) := by
  refine h.bind (h.tcaseRunCheckedSetup tc) fun r _ => ?_
  cases r with
  | some tr => exact h.pure tr
  | none =>
      refine h.bind (h.protect (h.callTest tfun i)) fun _ _ => ?_
      refine h.bind (h.srunnerRunTeardown _ _ _) fun _ _ => ?_
      refine h.bind (h.read _) fun _ _ => h.bind (h.read _) fun _ _ => ?_
      exact h.receiveResultInfoNofork _ _ _ _

/-- The child of a test: its setups, the test, its teardowns, and the duration. -/
theorem testProcess (tc : TCaseId) (tfun : TF ν) (i : Int) : P (testProcess x call tc tfun i) := by
  refine h.bind (h.tcaseRunCheckedSetup tc) fun _ _ => ?_
  refine h.bind (h.unprotected (h.callTest tfun i)) fun _ _ => ?_
  refine h.bind (h.srunnerRunTeardown _ _ _) fun _ _ => h.bind (h.read _) fun _ _ => ?_
  exact h.bind (h.send _) fun _ _ => h.kill

/-- The parent waits for the child and receives what it has sent. -/
theorem tcaseRunTfunFork (tc : TCaseId) (tfun : TF ν) (i : Int) :
    P (tcaseRunTfunFork x call tc tfun i) := by
  refine h.bind (h.fork _ (h.testProcess tc tfun i)) fun _ _ => h.bind (h.read _) fun _ _ => ?_
  refine h.bind (h.alarm _) fun _ _ => h.bind (h.read _) fun _ _ => ?_
  exact h.bind (h.receive _) fun _ _ => h.bind (h.read _) fun _ _ => h.pure _

/-- A test, in the mode of its runner. -/
theorem tcaseRunTfun (tc : TCaseId) (tfun : TF ν) (i : Int) :
    P (tcaseRunTfun x call tc tfun i) := by
  refine h.bind (h.read _) fun fstat _ => ?_
  cases fstat with
  | fork => exact h.tcaseRunTfunFork tc tfun i
  | nofork => exact h.tcaseRunTfunNofork tc tfun i
  | getenv => exact h.throw _ trivial

/-- The loggers, in the order in which they were registered. -/
theorem forLogs {body : Log → RunM L β ν (Option Unit)} (hb : ∀ lg, P (body lg)) :
    P (forLogs x body) :=
  h.bind (h.read _) fun _ _ => SeqClosed.ite (h.forList _ _ hb) (h.throw _ trivial)

/-- A property that every callback has is one of events. -/
theorem srunnerSendEvt {obj : LogObj} {evt : ClEvent}
    (hlfun : ∀ lg, P (callLfun x lg evt obj : RunM L β ν Unit)) :
    P (srunnerSendEvt x obj evt : RunM L β ν Unit) :=
  h.bind (h.forLogs fun lg => h.bind (hlfun lg) fun _ _ => h.pure _) fun _ _ => h.pure _

end TestClosed

/-! ## what tests and setups return -/

/-- A walk over a plain list returns what its body returned. -/
theorem returns_forList [Wire β] {x : Ctx} {r : LRef}
    {body : r.Elem ν → RunM List β ν (Option α)} {a : α}
    (h : Returns (forList x r body) (some a)) : ∃ f, Returns (body f) (some a) := by
  obtain ⟨s, s', h⟩ := h
  have hwalk : ∀ (xs : List (r.Elem ν)) (s : St List β ν),
      xs.findSomeM? body s = .ok (some a) s' → ∃ f, Returns (body f) (some a) := by
    intro xs
    induction xs with
    | nil =>
        intro s hs
        cases hs
    | cons f fs ih =>
        intro s hs
        obtain ⟨b, s₁, hb, hs⟩ := bind_eq_ok.mp hs
        cases b with
        | none => exact ih s₁ hs
        | some b =>
            cases hs
            exact ⟨f, s, s', hb⟩
  exact hwalk _ s h

/-- A failing setup returns a classified result that is not a pass. -/
theorem returns_srunnerRunSetup [Wire β] {x : Ctx} {call : ν → RunM List β ν Unit}
    {fl : FixtureList} {tc : TCaseId} {usage : ForkStatus} {tname sname : CStr} {tr : TestResult}
    (h : Returns (srunnerRunSetup x call fl tc usage tname sname) (some tr)) :
    tr.Classified ∧ tr.rtype ≠ .pass := by
  obtain ⟨_, -, h⟩ := returns_bind h
  obtain ⟨f, h⟩ := returns_forList h
  unfold runSetup at h
  by_cases hu : usage = .nofork
  · rw [if_pos hu] at h
    obtain ⟨_, -, h⟩ := returns_bind h
    obtain ⟨_, -, h⟩ := returns_bind h
    obtain ⟨tr', htr, h⟩ := returns_bind h
    by_cases hp : tr'.rtype ≠ .pass
    · rw [if_pos hp] at h
      cases returns_pure h
      exact ⟨classified_receiveNofork htr, hp⟩
    · rw [if_neg hp] at h
      cases returns_pure h
  · rw [if_neg hu] at h
    obtain ⟨_, -, h⟩ := returns_bind h
    cases returns_pure h

/-- Every test returns a classified result. -/
theorem returns_tcaseRunTfun [Wire β] {x : Ctx} {call : ν → RunM List β ν Unit} {tc : TCaseId}
    {tfun : TF ν} {i : Int} {tr : TestResult} (h : Returns (tcaseRunTfun x call tc tfun i) tr) :
    tr.Classified := by
  obtain ⟨fstat, -, h⟩ := returns_bind h
  cases fstat with
  | fork =>
      obtain ⟨_, -, h⟩ := returns_bind h
      obtain ⟨_, -, h⟩ := returns_bind h
      obtain ⟨_, -, h⟩ := returns_bind h
      obtain ⟨_, -, h⟩ := returns_bind h
      obtain ⟨_, -, h⟩ := returns_bind h
      obtain ⟨_, -, h⟩ := returns_bind h
      rw [returns_pure h]
      exact classified_setForkInfo _ _ _ _ _ _
  | nofork =>
      obtain ⟨r, hr, h⟩ := returns_bind h
      cases r with
      | some tr' =>
          cases returns_pure h
          obtain ⟨_, -, hr⟩ := returns_bind hr
          obtain ⟨_, -, hr⟩ := returns_bind hr
          exact (returns_srunnerRunSetup hr).1
      | none =>
          obtain ⟨_, -, h⟩ := returns_bind h
          obtain ⟨_, -, h⟩ := returns_bind h
          obtain ⟨_, -, h⟩ := returns_bind h
          obtain ⟨_, -, h⟩ := returns_bind h
          exact classified_receiveNofork h
  | getenv =>
      obtain ⟨s, s', h⟩ := h
      cases h

/-! ## runs -/

/-- The primitive steps of `srunner_run_tcase`. -/
structure CaseClosed [Wire β] (x : Ctx) (call : ν → RunM List β ν Unit)
    (P : ∀ {α : Type}, RunM List β ν α → Prop) : Prop extends TestClosed x call P where
  fstat : ∀ f, P (setForkStatus f : RunM List β ν Unit)
  addFailure : ∀ tr, tr.Classified → P (srunnerAddFailure tr : RunM List β ν Unit)
  occasion : ∀ f : When → When, P (update fun s => { s with now := f s.now } : RunM List β ν Unit)
  iter : ∀ tc tname i,
    P (update (St.onProc (Proc.observe x.lvl (.iter tc tname i))) : RunM List β ν Unit)
  event : ∀ obj evt, P (srunnerSendEvt x obj evt : RunM List β ν Unit)

/-- The primitive steps of logging around the test cases. -/
structure LogClosed [Wire β] (x : Ctx) (call : ν → RunM List β ν Unit)
    (P : ∀ {α : Type}, RunM List β ν α → Prop) : Prop extends CaseClosed x call P where
  logs : ∀ f : List Log → List Log,
    P (update fun s => s.setList .loglst (f (s.heap.lists .loglst)) : RunM List β ν Unit)
  loglst : ∀ b, P (update fun s => { s with sr := { s.sr with loglst := b } } :
    RunM List β ν Unit)

/-- The primitive steps of `srunner_iterate_suites`. -/
structure SuitesClosed [Wire β] (x : Ctx) (call : ν → RunM List β ν Unit)
    (P : ∀ {α : Type}, RunM List β ν α → Prop) : Prop extends CaseClosed x call P where
  tagLst : ∀ a l, P (update (St.setList (.tagLst a) l) : RunM List β ν Unit)
  tcase : ∀ tc, P (update (St.onProc (Proc.observe x.lvl (.tcase tc))) : RunM List β ν Unit)

/-- The primitive steps of a run between `setup_messaging` and
`teardown_messaging`. -/
structure RunClosed [Wire β] (x : Ctx) (calls : ν → RunM List β ν Unit)
    (P : ∀ {α : Type}, RunM List β ν α → Prop) : Prop extends LogClosed x calls P,
    SuitesClosed x calls P

/-- An event between the first and the last one of a run, with an object that fits it. -/
def InnerEvent (obj : LogObj) (evt : ClEvent) : Prop :=
  evt ≠ .initlogSr ∧ evt ≠ .endlogSr ∧ (evt = .endT → ∃ tr, obj = .result tr)

/-- Another one than the end of a test. -/
theorem innerEvent_of_ne {obj : LogObj} {evt : ClEvent} (hinit : evt ≠ .initlogSr)
    (hend : evt ≠ .endlogSr) (htest : evt ≠ .endT) : InnerEvent obj evt :=
  ⟨hinit, hend, fun he => absurd he htest⟩

/-- The end of a test, with its result. -/
theorem innerEvent_result (tr : TestResult) : InnerEvent (.result tr) .endT :=
  ⟨by decide, by decide, fun _ => ⟨tr, rfl⟩⟩

/-- The steps of the loops over the tests of a test case, with the tests as they are called. -/
structure IterationSteps [Wire β] (x : Ctx) (call : ν → RunM List β ν Unit)
    (P : ∀ {α : Type}, RunM List β ν α → Prop) : Prop extends SeqClosed P where
  forList : ∀ {α : Type} (r : LRef) (body : r.Elem ν → RunM List β ν (Option α)),
    (∀ f, P (body f)) → P (forList x r body)
  test : ∀ tc tfun i, P (tcaseRunTfun x call tc tfun i)
  addFailure : ∀ tr, tr.Classified → P (srunnerAddFailure tr : RunM List β ν Unit)
  occasion : ∀ f : When → When, P (update fun s => { s with now := f s.now } : RunM List β ν Unit)
  iter : ∀ tc tname i,
    P (update (St.onProc (Proc.observe x.lvl (.iter tc tname i))) : RunM List β ν Unit)
  event : ∀ obj evt, InnerEvent obj evt → P (srunnerSendEvt x obj evt : RunM List β ν Unit)

/-- The steps of `srunner_run_tcase`, with the fixtures and tests as they are called. -/
structure CaseSteps [Wire β] (x : Ctx) (call : ν → RunM List β ν Unit)
    (P : ∀ {α : Type}, RunM List β ν α → Prop) : Prop extends IterationSteps x call P where
  setup : ∀ fl tc usage tname sname, P (srunnerRunSetup x call fl tc usage tname sname)
  teardown : ∀ fl tc usage, P (srunnerRunTeardown x call fl tc usage)
  fstat : ∀ f, P (setForkStatus f : RunM List β ν Unit)

/-- The steps of the loops over the suites and their test cases, with the test cases as they are
run. -/
structure PlanSteps [Wire β] (x : Ctx) (call : ν → RunM List β ν Unit)
    (P : ∀ {α : Type}, RunM List β ν α → Prop) : Prop extends SeqClosed P where
  forList : ∀ {α : Type} (r : LRef) (body : r.Elem ν → RunM List β ν (Option α)),
    (∀ f, P (body f)) → P (forList x r body)
  event : ∀ obj evt, InnerEvent obj evt → P (srunnerSendEvt x obj evt : RunM List β ν Unit)
  tagLst : ∀ a l, P (update (St.setList (.tagLst a) l) : RunM List β ν Unit)
  run : ∀ tc, P (srunnerRunTcase x call tc)

/-- The steps of `srunner_iterate_suites`, with the fixtures and tests as they are
called. -/
structure SuiteSteps [Wire β] (x : Ctx) (call : ν → RunM List β ν Unit)
    (P : ∀ {α : Type}, RunM List β ν α → Prop) : Prop extends CaseSteps x call P where
  tagLst : ∀ a l, P (update (St.setList (.tagLst a) l) : RunM List β ν Unit)
  tcase : ∀ tc, P (update (St.onProc (Proc.observe x.lvl (.tcase tc))) : RunM List β ν Unit)

/-- The steps of a test case, from the primitive ones. -/
theorem CaseClosed.steps [Wire β] {x : Ctx} {call : ν → RunM List β ν Unit}
    {P : ∀ {α : Type}, RunM List β ν α → Prop} (h : CaseClosed x call P) : CaseSteps x call P where
  toSeqClosed := h.toSeqClosed
  forList := h.forList
  setup := h.srunnerRunSetup
  teardown := h.srunnerRunTeardown
  test := h.tcaseRunTfun
  fstat := h.fstat
  addFailure := h.addFailure
  occasion := h.occasion
  iter := h.iter
  event obj evt _ := h.event obj evt

/-- The steps of the loops over the suites, from the primitive ones. -/
theorem SuitesClosed.steps [Wire β] {x : Ctx} {call : ν → RunM List β ν Unit}
    {P : ∀ {α : Type}, RunM List β ν α → Prop} (h : SuitesClosed x call P) :
    SuiteSteps x call P where
  toCaseSteps := h.toCaseClosed.steps
  tagLst := h.tagLst
  tcase := h.tcase

namespace IterationSteps

variable [Wire β] {x : Ctx} {call : ν → RunM List β ν Unit}
  {P : ∀ {α : Type}, RunM List β ν α → Prop} (h : IterationSteps x call P)
include h

/-- An iteration: a test between its two events, and its result. -/
theorem runIteration (tc : TCaseId) (tfun : TF ν) (i : Int) :
    P (runIteration x call tc tfun i) := by
  have hstart : P (logTestStart x tc tfun : RunM List β ν Unit) := h.bind (h.read _) fun _ _ =>
    h.event _ _ (innerEvent_of_ne (by decide) (by decide) (by decide))
  refine h.bind (h.occasion fun w => { w with test := w.test + 1 }) fun _ _ => ?_
  refine h.bind (h.iter _ _ _) fun _ _ => h.bind hstart fun _ _ => ?_
  refine h.bind (h.test tc tfun i) fun tr htr => ?_
  -- the result of a test is classified
  exact h.bind (h.addFailure tr (returns_tcaseRunTfun htr)) fun _ _ =>
    h.event _ _ (innerEvent_result tr)

/-- A loop whose rounds have the property. -/
theorem loopFrom {body : Int → RunM List β ν Unit} (hb : ∀ i, P (body i)) (i : Int) (n : Nat) :
    P (loopFrom body i n) := by
  induction n generalizing i with
  | zero => exact h.pure ()
  | succ n ih => exact h.bind (hb i) fun _ _ => ih (i + 1)

/-- The tests of a test case with their iterations. -/
theorem srunnerIterateTcaseTfuns (tc : TCaseId) : P (srunnerIterateTcaseTfuns x call tc) := by
  refine h.bind (h.forList _ _ fun tfun => ?_) fun _ _ => h.pure _
  exact h.bind (h.loopFrom (h.runIteration tc tfun) _ _) fun _ _ => h.pure _

end IterationSteps

namespace CaseSteps

variable [Wire β] {x : Ctx} {call : ν → RunM List β ν Unit}
  {P : ∀ {α : Type}, RunM List β ν α → Prop} (h : CaseSteps x call P)
include h

/-- The unchecked setups: the fork status is put back before the result is stored. -/
theorem srunnerRunUncheckedSetup (tc : TCaseId) : P (srunnerRunUncheckedSetup x call tc) := by
  refine h.bind (h.fstat _) fun _ _ => h.bind (h.read _) fun _ _ => ?_
  refine h.bind (h.setup _ _ _ _ _) fun r hr => ?_
  refine h.bind (h.read _) fun _ _ => h.bind (h.fstat _) fun _ _ => ?_
  cases r with
  | none => exact h.pure _
  | some tr =>
      exact SeqClosed.ite
        (h.bind (h.addFailure tr (returns_srunnerRunSetup hr).1) fun _ _ => h.pure _) (h.pure _)

/-- A test case: its tests run, and its teardowns, if the unchecked setups pass. -/
theorem runTcase (tc : TCaseId) : P (runTcase x call tc) := by
  refine h.bind (h.srunnerRunUncheckedSetup tc) fun _ _ => SeqClosed.ite ?_ (h.pure _)
  refine h.bind (h.srunnerIterateTcaseTfuns tc) fun _ _ => ?_
  refine h.bind (h.occasion fun w => { w with test := 0 }) fun _ _ => ?_
  exact h.bind (h.read _) fun _ _ => h.teardown _ _ _

end CaseSteps

namespace LogClosed

variable [Wire β] {x : Ctx} {call : ν → RunM List β ν Unit}
  {P : ∀ {α : Type}, RunM List β ν α → Prop} (h : LogClosed x call P)
include h

/-- A logger of a file is registered if the file has a name. -/
theorem registerFile (fname : Option CStr) (var : EnvVar) (lfun : LFun) (mode : PrintOutput) :
    P (registerFile x fname var lfun mode : RunM List β ν Unit) := by
  unfold LibCheck.registerFile
  cases (logFileName x.env fname var).map srunnerOpenFile with
  | none => exact h.pure ()
  | some f => exact h.logs fun l => l ++ [_]

/-- The loggers are registered, and told of the beginning. -/
theorem srunnerInitLogging (mode : PrintOutput) :
    P (srunnerInitLogging x mode : RunM List β ν Unit) := by
  refine h.bind (h.logs fun _ => []) fun _ _ => h.bind (h.loglst true) fun _ _ => ?_
  refine h.bind (h.logs fun l => l ++ [_]) fun _ _ => ?_
  refine h.bind (h.read _) fun _ _ => h.bind (h.registerFile _ _ _ _) fun _ _ => ?_
  refine h.bind (h.read _) fun _ _ => h.bind (h.registerFile _ _ _ _) fun _ _ => ?_
  refine h.bind (h.read _) fun _ _ => h.bind (h.registerFile _ _ _ _) fun _ _ => ?_
  exact h.event _ _

/-- The loggers are told of the end, and released. -/
theorem srunnerEndLogging : P (srunnerEndLogging x : RunM List β ν Unit) := by
  refine h.bind (h.event _ _) fun _ _ => h.bind (h.forLogs fun _ => h.pure _) fun _ _ => ?_
  exact h.loglst false

end LogClosed

namespace PlanSteps

variable [Wire β] {x : Ctx} {call : ν → RunM List β ν Unit}
  {P : ∀ {α : Type}, RunM List β ν α → Prop} (h : PlanSteps x call P)
include h

/-- The tags of a test case are compared with those that are asked for. -/
theorem tcaseMatchingTag (tc : TCaseId) (a : TagArg) :
    P (tcaseMatchingTag x tc a : RunM List β ν Bool) :=
  h.bind (h.forList _ _ fun _ => h.forList _ _ fun _ => h.pure _) fun _ _ => h.pure _

/-- A test case is selected by its name and its tags. -/
theorem tcaseSelected (tcname incl excl : Option CStr) (tc : TCaseId) :
    P (tcaseSelected x tcname incl excl tc : RunM List β ν Bool) := by
  refine h.bind (h.read _) fun _ _ => SeqClosed.ite (h.pure _) ?_
  refine h.bind (SeqClosed.ite (h.tcaseMatchingTag tc _) (h.pure _)) fun _ _ =>
    SeqClosed.ite ?_ (h.pure _)
  exact h.bind (SeqClosed.ite (h.tcaseMatchingTag tc _) (h.pure _)) fun _ _ => h.pure _

/-- A suite is selected by its name, or by that of one of its test cases. -/
theorem suiteSelected (sname tcname : Option CStr) (s : SuiteId) :
    P (suiteSelected x sname tcname s : RunM List β ν Bool) := by
  refine h.bind (h.read _) fun _ _ => SeqClosed.ite (h.pure _) ?_
  cases tcname with
  | none => exact h.pure _
  | some tcname =>
      exact h.bind (h.forList _ _ fun _ => h.bind (h.read _) fun _ _ => h.pure _) fun _ _ =>
        h.pure _

/-- A suite: its selected test cases between its two events. -/
theorem iterateSuite (a : RunArgs) (s : SuiteId) : P (iterateSuite x call a s) := by
  have hstart : P (logSuiteStart x s : RunM List β ν Unit) := h.bind (h.read _) fun _ _ =>
    h.event _ _ (innerEvent_of_ne (by decide) (by decide) (by decide))
  have hend : P (logSuiteEnd x s : RunM List β ν Unit) := h.bind (h.read _) fun _ _ =>
    h.event _ _ (innerEvent_of_ne (by decide) (by decide) (by decide))
  refine h.bind (h.suiteSelected _ _ s) fun _ _ => SeqClosed.ite ?_ (h.pure _)
  refine h.bind hstart fun _ _ => h.bind (h.forList _ _ fun tc => ?_) fun _ _ => hend
  refine h.bind (h.tcaseSelected _ _ _ tc) fun _ _ => SeqClosed.ite ?_ (h.pure _)
  exact h.bind (h.run tc) fun _ _ => h.pure _

/-- All suites, with the tags that are asked for. -/
theorem srunnerIterateSuites (a : RunArgs) : P (srunnerIterateSuites x call a) := by
  refine h.bind (h.tagLst _ _) fun _ _ => h.bind (h.tagLst _ _) fun _ _ => ?_
  refine h.bind (h.forList _ _ fun s => ?_) fun _ _ => h.bind (h.tagLst _ _) fun _ _ => h.tagLst _ _
  exact h.bind (h.iterateSuite a s) fun _ _ => h.pure _

end PlanSteps

namespace SuiteSteps

variable [Wire β] {x : Ctx} {call : ν → RunM List β ν Unit}
  {P : ∀ {α : Type}, RunM List β ν α → Prop} (h : SuiteSteps x call P)
include h

/-- A test case begins a new occasion. -/
theorem srunnerRunTcase (tc : TCaseId) : P (srunnerRunTcase x call tc) := by
  refine h.bind (h.occasion fun w => ⟨w.tcrun + 1, 0⟩) fun _ _ => ?_
  exact h.bind (h.tcase tc) fun _ _ => h.runTcase tc

/-- The steps of the loops, with the test cases as they are run. -/
theorem plan : PlanSteps x call P where
  toSeqClosed := h.toSeqClosed
  forList := h.forList
  event := h.event
  tagLst := h.tagLst
  run := h.srunnerRunTcase

/-- All suites, from the steps of their test cases. -/
theorem srunnerIterateSuites (a : RunArgs) : P (srunnerIterateSuites x call a) :=
  h.plan.srunnerIterateSuites a

end SuiteSteps

/-- A whole run, for a property that also holds of opening and closing the
message file and of the signal dispositions. -/
theorem RunClosed.srunnerRunTagged [Wire β] {x : Ctx} {call : ν → RunM List β ν Unit}
    {P : ∀ {α : Type}, RunM List β ν α → Prop} (h : RunClosed x call P)
    (hsetup : P (setupPipe : RunM List β ν Unit))
    (hteardown : P (teardownPipe : RunM List β ν Unit))
    (hsigs : ∀ f : Proc β → SigActions × SigActions,
      P (update (St.onProc fun p => { p with oldSigs := (f p).1, sigs := (f p).2 }) :
        RunM List β ν Unit)) (a : RunArgs) : P (srunnerRunTagged x call a) := by
  have hinit : P (srunnerRunInit x a.printMode : RunM List β ν Unit) := by
    refine h.bind (h.read _) fun _ _ => h.bind (h.fstat _) fun _ _ => h.bind hsetup fun _ _ => ?_
    exact h.bind (h.srunnerInitLogging _) fun _ _ => h.event _ _
  have hend : P (srunnerRunEnd x : RunM List β ν Unit) := by
    refine h.bind (h.event _ _) fun _ _ => h.bind h.srunnerEndLogging fun _ _ => ?_
    exact h.bind hteardown fun _ _ => h.fstat _
  refine h.bind (hsigs fun p => (p.sigs, ⟨.sigHandler, .sigHandler, .sigHandler⟩)) fun _ _ => ?_
  refine h.bind hinit fun _ _ => ?_
  refine h.bind (h.toSuitesClosed.steps.srunnerIterateSuites _) fun _ _ => ?_
  exact h.bind hend fun _ _ => hsigs fun p => (p.oldSigs, p.oldSigs)

/-! ## instances -/

/-- Programs that keep an invariant are closed under sequencing. -/
theorem seqClosed_maintains {I : St L β ν → Prop} {E : Stop → St L β ν → Prop}
    (hE : ∀ e, Stop.Real e → ∀ s, I s → E e s) :
    SeqClosed fun {α} (y : RunM L β ν α) => Maintains I E y where
  pure a := Maintains.pure a
  throw e he := Maintains.throw (hE e he)
  read p := Maintains.read p
  bind {α γ y f} hy hf := by
    intro s hs
    have hys := hy s hs
    rw [bind_apply]
    cases hx : y s with
    | ok a s' =>
        rw [hx] at hys
        exact hf a ⟨s, s', hx⟩ s' hys
    | error e s' =>
        rw [hx] at hys
        exact hys

/-- Over plain lists, fixtures and tests leave everything but the process
alone. -/
theorem testClosed_memory [Wire β] {x : Ctx} {call : ν → RunM List β ν Unit}
    (hcall : ∀ c, Keeps St.memory (call c)) :
    TestClosed x call fun {α} (y : RunM List β ν α) => Keeps St.memory y where
  pure a := Keeps.pure a
  throw e _ := Keeps.throw e
  read p := Keeps.read p
  bind hy hf c := (seqClosed_maintains fun _ _ _ _ => trivial).bind (hy c) fun a ha => hf a ha c
  forList _ _ hb c := fun s hs => Maintains.findSomeM (fun f _ => hb f c) s hs
  fork p _ := keeps_forkChild p
  kill := keeps_killPoint
  send m := keeps_sendMsg x m
  receive w := keeps_receiveTestResult x w
  assertion _ := Keeps.update fun _ => rfl
  fixture _ _ := Keeps.update fun _ => rfl
  body _ _ := Keeps.update fun _ => rfl
  setjmp := Keeps.update fun _ => rfl
  alarm _ := Keeps.update fun _ => rfl
  call := hcall

/-- An invariant of the memory that survives the steps of a test case that
change the memory survives the test case. -/
theorem caseClosed_memory [Wire β] {x : Ctx} {call : ν → RunM List β ν Unit}
    (hcall : ∀ c, Keeps St.memory (call c)) {I : Heap List ν × SRunner List × When → Prop}
    (hadd : ∀ tr, tr.Classified →
      Maintains (fun s => I s.memory) (fun _ _ => True) (srunnerAddFailure tr : RunM List β ν Unit))
    (hnow : ∀ h sr w w', I (h, sr, w) → I (h, sr, w')) :
    CaseClosed x call fun {α} (y : RunM List β ν α) =>
      Maintains (fun s => I s.memory) (fun _ _ => True) y := by
  have hseq : SeqClosed fun {α} (y : RunM List β ν α) =>
      Maintains (fun s => I s.memory) (fun _ _ => True) y :=
    seqClosed_maintains fun _ _ _ _ => trivial
  have htest := testClosed_memory (x := x) hcall
  have hinv : TestClosed x call fun {α} (y : RunM List β ν α) =>
      Maintains (fun s => I s.memory) (fun _ _ => True) y :=
    { hseq with
      forList := fun r body hb s hs => Maintains.findSomeM (fun f _ => hb f) s hs
      fork := fun p _ => (keeps_forkChild p).maintains
      kill := htest.kill.maintains
      send := fun m => (htest.send m).maintains
      receive := fun w => (htest.receive w).maintains
      assertion := fun a => (htest.assertion a).maintains
      fixture := fun fl addr => (htest.fixture fl addr).maintains
      body := fun tname i => (htest.body tname i).maintains
      setjmp := htest.setjmp.maintains
      alarm := fun b => (htest.alarm b).maintains
      call := fun c => (hcall c).maintains }
  exact
    { hinv with
      fstat := fun f => Maintains.update fun _ hs => hs
      addFailure := hadd
      occasion := fun f => Maintains.update fun s hs => hnow _ _ _ _ hs
      iter := fun tc tname i => Maintains.update fun _ hs => hs
      event := fun obj evt => hinv.srunnerSendEvt fun lg =>
        (keeps_callLfun x lg evt obj).maintains }

/-- An invariant of the memory that survives the steps of a run that change
the memory survives the run. -/
theorem runClosed_memory [Wire β] {x : Ctx} {call : ν → RunM List β ν Unit}
    {I : Heap List ν × SRunner List × When → Prop}
    (h : CaseClosed x call fun {α} (y : RunM List β ν α) =>
      Maintains (fun s => I s.memory) (fun _ _ => True) y)
    (hlists : ∀ h sr w r l, I (h, sr, w) → (r = .loglst ∨ ∃ a, r = .tagLst a) →
      I ({ h with lists := Function.update h.lists r l }, sr, w))
    (hlog : ∀ h sr w b, I (h, sr, w) → I (h, { sr with loglst := b }, w)) :
    RunClosed x call fun {α} (y : RunM List β ν α) =>
      Maintains (fun s => I s.memory) (fun _ _ => True) y where
  toCaseClosed := h
  tagLst a l := Maintains.update fun _ hs => hlists _ _ _ _ l hs (.inr ⟨a, rfl⟩)
  logs _ := Maintains.update fun _ hs => hlists _ _ _ _ _ hs (.inl rfl)
  loglst b := Maintains.update fun _ hs => hlog _ _ _ b hs
  tcase _ := Maintains.update fun _ hs => hs

/-- An invariant as in `runClosed_memory`, over a whole run. -/
theorem maintains_srunnerRunTagged [Wire β] {x : Ctx} {call : ν → RunM List β ν Unit}
    {I : Heap List ν × SRunner List × When → Prop}
    (h : RunClosed x call fun {α} (y : RunM List β ν α) =>
      Maintains (fun s => I s.memory) (fun _ _ => True) y) (a : RunArgs) :
    Maintains (fun s => I s.memory) (fun _ _ => True) (srunnerRunTagged x call a) :=
  h.srunnerRunTagged keeps_setupPipe.maintains keeps_teardownPipe.maintains
    (fun _ => Maintains.update fun _ hs => hs) a

end LibCheck
