import LibCheck.Delivery

/-!
# LibCheck.Endings

A run up to its end, wherever that is.

* `Start`, `planStarts` — the test cases and the tests that a plan begins, in their
  order.
* `begun` — those that a run has begun; where it is stopped, these are the first ones
  of its plan.
-/

namespace LibCheck

open Prog

/-! ## views of the history that user code does not change -/

section

variable {x : Ctx} {γ : Type} {g : Obs → Option γ}

/-- A part of a run that adds nothing to a view of the history, also where it stops. -/
def Unseen (x : Ctx) (g : Obs → Option γ) (y : RunM List SendMsg NestedRun α) : Prop :=
  ∀ c, MsgsInv.Holds (fun m => shown g x.lvl m.2.2 = c) (fun m => shown g x.lvl m.2.2 = c) y

theorem Unseen.endState {y : RunM List SendMsg NestedRun α} (h : Unseen x g y)
    (s : St List SendMsg NestedRun) :
    shown g x.lvl (endState (y s)).proc.hist = shown g x.lvl s.proc.hist :=
  Maintains.endState (h (shown g x.lvl s.proc.hist)) rfl (fun _ hs => hs) fun _ _ hs => hs.1

theorem Unseen.of_ok {y : RunM List SendMsg NestedRun α} {a : α} {s s' : St List SendMsg NestedRun}
    (h : Unseen x g y) (hy : y s = .ok a s') :
    shown g x.lvl s'.proc.hist = shown g x.lvl s.proc.hist := by
  have hend := h.endState s
  rw [hy] at hend
  exact hend

theorem Unseen.of_error {y : RunM List SendMsg NestedRun α} {e : Stop}
    {s s' : St List SendMsg NestedRun} (h : Unseen x g y) (hy : y s = .error e s') :
    shown g x.lvl s'.proc.hist = shown g x.lvl s.proc.hist := by
  have hend := h.endState s
  rw [hy] at hend
  exact hend

/-- What fixtures and tests do, for a view without user code. -/
theorem testClosed_unseen (hg : ∀ o, o.isUser → g o = none) :
    TestClosed x (runNested x) fun {α} (y : RunM List SendMsg NestedRun α) => Unseen x g y :=
  have h c := (msgsInv_shown x g c).testClosed hg (runNested_shown x g c)
  { pure := fun a c => (h c).pure a
    throw := fun e he c => (h c).throw e he
    read := fun p c => (h c).read p
    bind := fun hy hf c => (h c).bind (hy c) fun a ha => hf a ha c
    forList := fun r body hb c => (h c).forList r body fun f => hb f c
    fork := fun p hp c => (h c).fork p (hp c)
    kill := fun c => (h c).kill
    send := fun m c => (h c).send m
    receive := fun w c => (h c).receive w
    assertion := fun a c => (h c).assertion a
    fixture := fun fl addr c => (h c).fixture fl addr
    body := fun tname i c => (h c).body tname i
    setjmp := fun c => (h c).setjmp
    alarm := fun b c => (h c).alarm b
    call := fun n c => (h c).call n }

/-- An event, for a view without the loggers. -/
theorem unseen_srunnerSendEvt (hg : ∀ o, o.isUser → g o = none) (hlog : ∀ c, g (.log c) = none)
    (obj : LogObj) (evt : ClEvent) : Unseen x g (srunnerSendEvt x obj evt) :=
  (testClosed_unseen hg).srunnerSendEvt fun lg c => (msgsInv_shown x g c).callLfun hlog lg evt obj

theorem unseen_update {f : St List SendMsg NestedRun → St List SendMsg NestedRun}
    (hf : ∀ s, (f s).proc.hist = s.proc.hist) : Unseen x g (update f) := by
  intro c
  refine Maintains.update fun s hs => ?_
  show shown g x.lvl (f s).proc.hist = c
  rw [hf]
  exact hs

/-- The unchecked setups of a test case. -/
theorem unseen_srunnerRunUncheckedSetup (hg : ∀ o, o.isUser → g o = none) (tc : TCaseId) :
    Unseen x g (srunnerRunUncheckedSetup x (runNested x) tc) := by
  have h := testClosed_unseen (x := x) hg
  refine h.bind (unseen_update fun _ => rfl) fun _ _ => h.bind (h.read _) fun _ _ =>
    h.bind (h.srunnerRunSetup _ _ _ _ _) fun r _ => h.bind (h.read _) fun _ _ =>
      h.bind (unseen_update fun _ => rfl) fun _ _ => ?_
  cases r with
  | none => exact h.pure true
  | some tr =>
      simp only
      split
      · exact h.bind (unseen_update fun _ => rfl) fun _ _ => h.pure false
      · exact h.pure true

/-- The unchecked teardowns of a test case. -/
theorem unseen_srunnerRunUncheckedTeardown (hg : ∀ o, o.isUser → g o = none) (tc : TCaseId) :
    Unseen x g (srunnerRunUncheckedTeardown x (runNested x) tc) := by
  have h := testClosed_unseen (x := x) hg
  exact h.bind (h.read _) fun _ _ => h.srunnerRunTeardown _ _ _

/-- What a run does before its suites. -/
theorem unseen_startRun (hg : ∀ o, o.isUser → g o = none) (hlog : ∀ c, g (.log c) = none)
    (mode : PrintOutput) : Unseen x g (startRun x mode) := by
  have h := testClosed_unseen (x := x) hg
  have hpipe : Unseen x g (setupPipe : RunM List SendMsg NestedRun Unit) :=
    fun _ => Maintains.bind (Maintains.read _) fun _ =>
      Maintains.ite (Maintains.update fun _ hs => hs)
      (Maintains.bind (Maintains.read _) fun _ =>
        Maintains.ite (Maintains.update fun _ hs => hs) (Maintains.throw fun _ hs => ⟨hs, trivial⟩))
  refine h.bind hpipe fun _ _ => h.bind (fun c s hs => ?_) fun _ _ =>
    unseen_srunnerSendEvt hg hlog _ _
  rw [srunnerInitLogging_apply]
  exact unseen_srunnerSendEvt hg hlog _ _ c _ hs

/-- What a run does after its suites. -/
theorem unseen_finishRun (hg : ∀ o, o.isUser → g o = none) (hlog : ∀ c, g (.log c) = none) :
    Unseen x g (finishRun x) := by
  have h := testClosed_unseen (x := x) hg
  have hpipe : Unseen x g (teardownPipe : RunM List SendMsg NestedRun Unit) :=
    fun _ => Maintains.bind (Maintains.read _) fun _ =>
      Maintains.ite (Maintains.update fun _ hs => hs)
      (Maintains.bind (Maintains.read _) fun _ =>
        Maintains.ite (Maintains.update fun _ hs => hs) (Maintains.throw fun _ hs => ⟨hs, trivial⟩))
  have hclose : Unseen x g (srunnerEndLogging x) :=
    h.bind (unseen_srunnerSendEvt hg hlog _ _) fun _ _ =>
      h.bind (h.forLogs fun _ => h.pure none) fun _ _ => unseen_update fun _ => rfl
  exact h.bind (unseen_srunnerSendEvt hg hlog _ _) fun _ _ => h.bind hclose fun _ _ =>
    h.bind hpipe fun _ _ => unseen_update fun _ => rfl

end

/-! ## parts that record nothing -/

section

variable {x : Ctx} {s s' : St List SendMsg NestedRun}

/-- A part of a run that leaves the results alone, also where it stops. -/
def SparesResults (y : RunM List SendMsg NestedRun α) : Prop :=
  ∀ R, Maintains (fun s => s.sr.resultlst = R) (fun _ s => s.sr.resultlst = R) y

theorem SparesResults.of_error {y : RunM List SendMsg NestedRun α} {e : Stop} (h : SparesResults y)
    (hy : y s = .error e s') : s'.sr.resultlst = s.sr.resultlst := by
  have hend := h s.sr.resultlst s rfl
  rw [hy] at hend
  exact hend

theorem SparesResults.of_ok {y : RunM List SendMsg NestedRun α} {a : α} (h : SparesResults y)
    (hy : y s = .ok a s') : s'.sr.resultlst = s.sr.resultlst := by
  have hend := h s.sr.resultlst s rfl
  rw [hy] at hend
  exact hend

theorem sparesResults_sendMsg (m : SendMsg) :
    SparesResults (sendMsg x m : RunM List SendMsg NestedRun Unit) := by
  intro R s hs
  obtain ⟨_, _, -, h⟩ | ⟨-, h⟩ | ⟨_, -, -, h⟩ := sendMsg_apply x m s <;> rw [h] <;> exact hs

/-- Fixtures and tests record nothing, also where they end the run. -/
theorem testClosed_results : TestClosed x (runNested x) fun {α}
    (y : RunM List SendMsg NestedRun α) =>
    SparesResults y where
  pure a _ := Maintains.pure a
  throw e _ _ := Maintains.throw fun _ hs => hs
  read p _ := Maintains.read p
  bind hy hf R := (seqClosed_maintains fun _ _ _ hs => hs).bind (hy R) fun a ha => hf a ha R
  forList _ _ hb R s hs := Maintains.findSomeM (fun f _ => hb f R) s hs
  fork p _ R s hs := by
    simp only [forkChild]
    cases p (s.onProc fun q => { q with killIn := x.env.kill s.now }) with
    | ok a c => exact hs
    | error e c => cases e <;> exact hs
  kill _ := by
    refine Maintains.bind (Maintains.read _) fun k => ?_
    rcases k with _ | ⟨_ | n, sig⟩
    · exact Maintains.pure ()
    · exact Maintains.throw fun _ hs => hs
    · exact Maintains.update fun _ hs => hs
  send := sparesResults_sendMsg
  receive w R s hs := by
    rw [receiveTestResult_apply]
    cases s.proc.getPipe.map fun f => rcvOutcome (Wire.punpack x.cfg f.content) with
    | none => exact hs
    | some r => cases r <;> exact hs
  assertion _ _ := Maintains.update fun _ hs => hs
  fixture _ _ _ := Maintains.update fun _ hs => hs
  body _ _ _ := Maintains.update fun _ hs => hs
  setjmp _ := Maintains.update fun _ hs => hs
  alarm _ _ := Maintains.update fun _ hs => hs
  call c R s hs := by
    simp only [runNested]
    cases srunnerRunTagged (x.nested c.env) Empty.elim c.args
      (c.start s.proc : St List SendMsg Empty)
    <;> exact hs

/-- Unchecked setups that stop record nothing. -/
theorem srunnerRunUncheckedSetup_error {tc : TCaseId} {e : Stop}
    (h : srunnerRunUncheckedSetup x (runNested x) tc s = .error e s') :
    s'.sr.resultlst = s.sr.resultlst := by
  rw [srunnerRunUncheckedSetup, setForkStatus, update_bind, read_bind] at h
  obtain hset | ⟨r, s1, -, h⟩ := bind_eq_error.mp h
  · have hsr' := (testClosed_results.srunnerRunSetup _ _ _ _ _).of_error hset
    exact hsr'
  · rw [srunnerForkStatus, read_bind, setForkStatus, update_bind] at h
    cases r with
    | none => cases h
    | some tr =>
        simp only at h
        split at h <;> cases h

/-- The unchecked teardowns of a test case. -/
theorem sparesResults_srunnerRunUncheckedTeardown (tc : TCaseId) :
    SparesResults (srunnerRunUncheckedTeardown x (runNested x) tc) := by
  have h := testClosed_results (x := x)
  exact h.bind (h.read _) fun _ _ => h.srunnerRunTeardown _ _ _

theorem sparesResults_srunnerSendEvt (obj : LogObj) (evt : ClEvent) :
    SparesResults (srunnerSendEvt x obj evt : RunM List SendMsg NestedRun Unit) := by
  refine (testClosed_results (x := x)).srunnerSendEvt fun lg R => ?_
  refine Maintains.bind (Maintains.update fun _ hs => hs) fun _ => ?_
  refine Maintains.bind (Maintains.read _) fun _ => ?_
  refine Maintains.bind (Maintains.update fun _ hs => hs) fun _ => ?_
  refine Maintains.bind (Maintains.read _) fun _ => Maintains.bind (Maintains.read _) fun _ => ?_
  refine Maintains.bind (Maintains.read _) fun _ => Maintains.bind (Maintains.read _) fun _ => ?_
  refine Maintains.bind (Maintains.update fun _ hs => hs) fun _ => ?_
  cases lfunStop lg.lfun obj with
  | some e => exact Maintains.throw fun _ hs => hs
  | none => exact Maintains.pure ()

/-- What a run does before its suites. -/
theorem sparesResults_startRun {mode : PrintOutput} :
    SparesResults (startRun x mode : RunM List SendMsg NestedRun Unit) := by
  intro R
  refine Maintains.bind ?_ fun _ => Maintains.bind (fun s hs => ?_) fun _ =>
    sparesResults_srunnerSendEvt _ _ R
  · exact Maintains.bind (Maintains.read _) fun _ => Maintains.ite (Maintains.update fun _ hs => hs)
      (Maintains.bind (Maintains.read _) fun _ => Maintains.ite (Maintains.update fun _ hs => hs)
        (Maintains.throw fun _ hs => hs))
  · rw [srunnerInitLogging_apply]
    exact sparesResults_srunnerSendEvt _ _ R _ hs

/-- What a run does after its suites. -/
theorem sparesResults_finishRun :
    SparesResults (finishRun x : RunM List SendMsg NestedRun Unit) := by
  intro R
  refine Maintains.bind (sparesResults_srunnerSendEvt _ _ R) fun _ =>
    Maintains.bind (Maintains.bind (sparesResults_srunnerSendEvt _ _ R) fun _ =>
      Maintains.bind ?_ fun _ => Maintains.update fun _ hs => hs) fun _ =>
        Maintains.bind ?_ fun _ => Maintains.update fun _ hs => hs
  · exact (testClosed_results (x := x)).forLogs (fun _ _ => Maintains.pure none) R
  · exact Maintains.bind (Maintains.read _) fun _ => Maintains.ite (Maintains.update fun _ hs => hs)
      (Maintains.bind (Maintains.read _) fun _ => Maintains.ite (Maintains.update fun _ hs => hs)
        (Maintains.throw fun _ hs => hs))

end

/-! ## what begins -/

/-- A test case or a test that begins. -/
inductive Start where
  /-- the `k`-th test case that is run; a failure may be waiting -/
  | tcase (k : Nat) (waiting : Bool) (tc : TCaseId)
  /-- an iteration of a test -/
  | test (now : When) (tc : TCaseId) (tfun : TF NestedRun) (i : Int)

/-- What is observed of it. -/
def Start.obs : Start → Obs
  | .tcase _ _ tc => .tcase tc
  | .test _ tc tfun i => .iter tc tfun.ttest.name i

/-- The observation that something begins. -/
def Obs.start? : Obs → Option Obs
  | .tcase tc => some (.tcase tc)
  | .iter tc tname i => some (.iter tc tname i)
  | _ => none

theorem start?_of_isUser (o : Obs) (h : o.isUser) : o.start? = none := by
  cases o <;> first | rfl | cases h

/-- What the run at a nesting level has begun. -/
def begun (lvl : Nat) (hist : List (Nat × Obs)) : List Obs := shown Obs.start? lvl hist

/-- The iterations that begin after a test with the given number. -/
def testStarts (tc : TCaseId) : When → List (TF NestedRun × Int) → List Start
  | _, [] => []
  | now, t :: ts =>
      .test { now with test := now.test + 1 } tc t.1 t.2 ::
        testStarts tc { now with test := now.test + 1 } ts

theorem testStarts_append (tc : TCaseId) (now : When) (ts ts' : List (TF NestedRun × Int)) :
    testStarts tc now (ts ++ ts') =
      testStarts tc now ts ++ testStarts tc { now with test := now.test + ts.length } ts' := by
  induction ts generalizing now with
  | nil => rfl
  | cons t ts ih =>
      rw [List.cons_append, testStarts, testStarts, ih, List.cons_append, List.length_cons,
        Nat.add_assoc now.test, Nat.add_comm 1]

section

variable {L L' : Type → Type} [Lists L] [Lists L'] (heap : Heap L NestedRun)

/-- What begins with a test case: its iterations only if it is not abandoned. -/
def caseStarts (t : Nat × Bool × TCaseId) : List Start :=
  .tcase t.1 t.2.1 t.2.2 ::
    if abandoned heap t.1 t.2.1 t.2.2 then []
    else testStarts t.2.2 ⟨t.1, 0⟩ (iterations heap t.2.2)

/-- What begins in the course of a plan. -/
def planStarts (c : Nat × Bool) (ks : List RunStep) : List Start :=
  (foreseen heap c ks).flatMap (caseStarts heap)

theorem planStarts_append (c : Nat × Bool) (ks ks' : List RunStep) :
    planStarts heap c (ks ++ ks') =
      planStarts heap c ks ++ planStarts heap (ks.foldl (carry heap) c) ks' := by
  rw [planStarts, foreseen_append, List.flatMap_append]
  rfl

variable {heap}

theorem SameCases.planStarts {K : Heap L' NestedRun} (h : SameCases heap K) (c : Nat × Bool)
    (ks : List RunStep) : planStarts K c ks = planStarts heap c ks := by
  have hcase : caseStarts K = caseStarts heap := by
    funext t
    rw [caseStarts, caseStarts, h.abandoned, h.iterations]
  rw [LibCheck.planStarts, LibCheck.planStarts, h.foreseen, hcase]

end

section

variable {x : Ctx} {H : Heap List NestedRun} {mode : ForkStatus} {tc : TCaseId}
  {s s' : St List SendMsg NestedRun}

theorem begun_observe (o : Obs) (s : St List SendMsg NestedRun) :
    begun x.lvl (s.onProc (Proc.observe x.lvl o)).proc.hist =
      begun x.lvl s.proc.hist ++ o.start?.toList :=
  shown_append Obs.start? x.lvl o s.proc.hist

theorem unseen_event (obj : LogObj) (evt : ClEvent) :
    Unseen x Obs.start? (srunnerSendEvt x obj evt) :=
  unseen_srunnerSendEvt start?_of_isUser (fun _ => rfl) obj evt

/-- An iteration begins, wherever it stops. -/
theorem begun_runIteration (tc : TCaseId) (tfun : TF NestedRun) (i : Int)
    (s : St List SendMsg NestedRun) :
    begun x.lvl (endState (runIteration x (runNested x) tc tfun i s)).proc.hist =
      begun x.lvl s.proc.hist ++ [.iter tc tfun.ttest.name i] := by
  have h := testClosed_unseen (x := x) start?_of_isUser
  have hrest : Unseen x Obs.start? (do
      logTestStart x tc tfun
      let tr ← tcaseRunTfun x (runNested x) tc tfun i
      srunnerAddFailure tr
      logTestEnd x tr) :=
    h.bind (h.bind (h.read _) fun _ _ => unseen_event _ _) fun _ _ =>
      h.bind (h.tcaseRunTfun tc tfun i) fun tr _ =>
        h.bind (unseen_update fun _ => rfl) fun _ _ => unseen_event _ _
  rw [runIteration, update_bind, update_bind]
  exact (hrest.endState _).trans (begun_observe _ _)

end

end LibCheck
