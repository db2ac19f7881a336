import LibCheck.Attribution
import Mathlib.Data.Int.Range
import Mathlib.Data.List.Forall2

/-!
# LibCheck.Logging

What the loggers are told while the test cases of a run are run, and what is
recorded.

* `abandoned`, `leftBehind`, `foreseen` — a test case is abandoned if one of
  its unchecked setups fails, or inherits the failure of an unchecked teardown
  before it.  Which ones are is known from the user's functions alone.
* `Logged` — what a part of a run has logged and recorded.
* `does_srunnerRunTcase` — a test case logs each of its iterations, or is
  abandoned and logs nothing.
-/

namespace LibCheck

open Prog

/-! ## abandoned test cases -/

section

variable {L : Type → Type} [Lists L] (heap : Heap L NestedRun)

/-- The iterations of a test case: its test functions, each with its loop
indices. -/
def iterations (tc : TCaseId) : List (TF NestedRun × Int) :=
  (Lists.elems (heap.lists (.tflst tc))).flatMap fun tfun =>
    (Int.range tfun.loopStart tfun.loopEnd).map fun i => (tfun, i)

/-- The unchecked setup of the test case reports a failure: its own or, if it
has any fixtures, one that is waiting (`p`). -/
def abandoned (k : Nat) (p : Bool) (tc : TCaseId) : Bool :=
  (!(Lists.elems (heap.lists (.fixtures .unchSflst tc))).isEmpty && p) ||
    fixturesFail heap .unchSflst k tc

/-- The test case leaves a failure behind: that of an unchecked teardown, or
one that nobody has received. -/
def leftBehind (k : Nat) (p : Bool) (tc : TCaseId) : Bool :=
  if abandoned heap k p tc then false
  else ((iterations heap tc).isEmpty &&
      ((Lists.elems (heap.lists (.fixtures .unchSflst tc))).isEmpty && p)) ||
    fixturesFail heap .unchTflst k tc

/-- The units of the `k`-th test case that is run. -/
def caseUnits (k : Nat) (tc : TCaseId) : List TestUnit :=
  if fixturesFail heap .unchSflst k tc then [.setup k tc]
  else testUnits tc ⟨k, 0⟩ (iterations heap tc)

/-- How many test cases have been run, and whether a failure is waiting, after a
step. -/
def carry (c : Nat × Bool) : RunStep → Nat × Bool
  | .tcase tc => (c.1 + 1, leftBehind heap (c.1 + 1) c.2 tc)
  | _ => c

/-- The test cases of a plan, each with its number and with whether a failure is
waiting when it begins. -/
def foreseen : Nat × Bool → List RunStep → List (Nat × Bool × TCaseId)
  | _, [] => []
  | c, .tcase tc :: ks => (c.1 + 1, c.2, tc) :: foreseen (carry heap c (.tcase tc)) ks
  | c, _ :: ks => foreseen c ks

/-- The units of a plan. -/
def planUnits (c : Nat × Bool) (ks : List RunStep) : List TestUnit :=
  (foreseen heap c ks).flatMap fun t => caseUnits heap t.1 t.2.2

/-- How many test cases of a plan are abandoned. -/
def lost (c : Nat × Bool) (ks : List RunStep) : Nat :=
  (foreseen heap c ks).countP fun t => abandoned heap t.1 t.2.1 t.2.2

/-- The events of one iteration of a test. -/
def iterationEvents (tc : TCaseId) (t : TF NestedRun × Int) : List Event :=
  [.iter tc t.1.ttest.name t.2,
    .log .startT (.testName (testStartName (heap.tcName tc) t.1.ttest.name)), .log .endT .null]

/-- The events of a step, if the test cases that `skip` says are abandoned. -/
def stepEvents (skip : TCaseId → Bool) : RunStep → List Event
  | .suiteStart su => [.log .startS (.suite su (heap.suiteName su))]
  | .tcase tc =>
      if skip tc then [] else (iterations heap tc).flatMap (iterationEvents heap tc)
  | .suiteEnd su => [.log .endS (.suite su (heap.suiteName su))]

/-- The events of a plan, as they come. -/
def planEvents : Nat × Bool → List RunStep → List Event
  | _, [] => []
  | c, step :: ks =>
      stepEvents heap (abandoned heap (c.1 + 1) c.2) step ++ planEvents (carry heap c step) ks

/-- The events of a plan, as they should be: only the test cases are abandoned
whose own unchecked setups fail. -/
def expectedEvents : Nat → List RunStep → List Event
  | _, [] => []
  | k, .tcase tc :: ks =>
      stepEvents heap (fixturesFail heap .unchSflst (k + 1)) (.tcase tc) ++
        expectedEvents (k + 1) ks
  | k, step :: ks => stepEvents heap (fun _ => false) step ++ expectedEvents k ks

theorem planEvents_append (c : Nat × Bool) (ks ks' : List RunStep) :
    planEvents heap c (ks ++ ks') =
      planEvents heap c ks ++ planEvents heap (ks.foldl (carry heap) c) ks' := by
  induction ks generalizing c with
  | nil => rfl
  | cons step ks ih =>
      rw [List.cons_append, planEvents, planEvents, ih, List.append_assoc, List.foldl_cons]

theorem foreseen_append (c : Nat × Bool) (ks ks' : List RunStep) :
    foreseen heap c (ks ++ ks') =
      foreseen heap c ks ++ foreseen heap (ks.foldl (carry heap) c) ks' := by
  induction ks generalizing c with
  | nil => rfl
  | cons step ks ih =>
      cases step with
      | suiteStart su => exact ih c
      | suiteEnd su => exact ih c
      | tcase tc =>
          rw [List.cons_append, foreseen, foreseen, ih, List.cons_append, List.foldl_cons]

theorem planUnits_append (c : Nat × Bool) (ks ks' : List RunStep) :
    planUnits heap c (ks ++ ks') =
      planUnits heap c ks ++ planUnits heap (ks.foldl (carry heap) c) ks' := by
  rw [planUnits, foreseen_append, List.flatMap_append]
  rfl

theorem lost_append (c : Nat × Bool) (ks ks' : List RunStep) :
    lost heap c (ks ++ ks') = lost heap c ks + lost heap (ks.foldl (carry heap) c) ks' := by
  rw [lost, foreseen_append, List.countP_append]
  rfl

end

namespace SameCases

variable {L L' : Type → Type} [Lists L] [Lists L'] {H : Heap L NestedRun} {K : Heap L' NestedRun}
  (h : SameCases H K)
include h

theorem fixtures (fl : FixtureList) (tc : TCaseId) :
    Lists.elems (K.lists (.fixtures fl tc)) = Lists.elems (H.lists (.fixtures fl tc)) :=
  h.2.2 _ (fun he => nomatch he) (fun _ he => nomatch he)

theorem tflst (tc : TCaseId) : Lists.elems (K.lists (.tflst tc)) = Lists.elems
    (H.lists (.tflst tc)) :=
  h.2.2 _ (fun he => nomatch he) (fun _ he => nomatch he)

theorem fixturesFail : fixturesFail K = fixturesFail H := by
  funext fl k tc
  rw [LibCheck.fixturesFail, LibCheck.fixturesFail, h.fixtures]

theorem iterations : iterations K = iterations H := by
  funext tc
  rw [LibCheck.iterations, LibCheck.iterations, h.tflst]

theorem abandoned : abandoned K = abandoned H := by
  funext k p tc
  rw [LibCheck.abandoned, LibCheck.abandoned, h.fixtures, h.fixturesFail]

theorem carry : carry K = carry H := by
  funext c step
  cases step with
  | suiteStart su => rfl
  | suiteEnd su => rfl
  | tcase tc =>
      simp only [LibCheck.carry, leftBehind, h.abandoned, h.iterations, h.fixturesFail, h.fixtures]

theorem foreseen (c : Nat × Bool) (ks : List RunStep) : foreseen K c ks = foreseen H c ks := by
  induction ks generalizing c with
  | nil => rfl
  | cons step ks ih =>
      cases step with
      | suiteStart su => exact ih c
      | suiteEnd su => exact ih c
      | tcase tc => rw [LibCheck.foreseen, LibCheck.foreseen, ih, h.carry]

theorem planUnits (c : Nat × Bool) (ks : List RunStep) : planUnits K c ks = planUnits H c ks := by
  have hcase : caseUnits K = caseUnits H := by
    funext k tc
    rw [caseUnits, caseUnits, h.fixturesFail, h.iterations]
  rw [LibCheck.planUnits, LibCheck.planUnits, h.foreseen, hcase]

theorem attributed {u : TestUnit} {tr : TestResult} (hu : Attributed K u tr) :
    Attributed H u tr := by
  obtain ⟨hname, hfail⟩ := hu
  rw [h.2.1] at hname
  refine ⟨hname, hfail.trans ?_⟩
  cases u <;> simp only [TestUnit.fails, h.fixturesFail, testFails, h.fixtures]

theorem lost (c : Nat × Bool) (ks : List RunStep) : lost K c ks = lost H c ks := by
  rw [LibCheck.lost, LibCheck.lost, h.foreseen, h.abandoned]

theorem planEvents (c : Nat × Bool) (ks : List RunStep) :
    planEvents K c ks = planEvents H c ks := by
  have hiter : iterationEvents K = iterationEvents H := by
    funext tc t
    simp only [iterationEvents, h.2.1]
  have hstep : stepEvents K = stepEvents H := by
    funext skip step
    cases step <;> simp only [stepEvents, h.iterations, hiter, h.1]
  induction ks generalizing c with
  | nil => rfl
  | cons step ks ih =>
      rw [LibCheck.planEvents, LibCheck.planEvents, ih, h.carry, h.abandoned, hstep]

end SameCases

/-! ## what is logged -/

/-- What the loggers see of an event that does not deliver a result. -/
theorem srunnerSendEvt_seen {x : Ctx} {lgs : List Log} {s s' : St List SendMsg NestedRun}
    {evt : ClEvent} {obj : LogObj} (hlgs : s.heap.lists .loglst = lgs)
    (hnd : (lgs.map Log.lfun).Nodup) (hevt : evt ≠ .endT)
    (h : srunnerSendEvt x obj evt s = .ok () s') :
    s'.sr = s.sr ∧ ∀ lg ∈ lgs,
      eventsOf lg x.lvl s'.proc.hist = eventsOf lg x.lvl s.proc.hist ++ [.log evt obj.outline] ∧
      delivered lg x.lvl s'.proc.hist = delivered lg x.lvl s.proc.hist := by
  obtain ⟨-, -, rfl⟩ := srunnerSendEvt_ok h
  rw [hlgs]
  refine ⟨rfl, fun lg hlg => ⟨?_, ?_⟩⟩
  · exact shown_foldl_notify (fun _ _ _ => by rw [Obs.event?, if_pos rfl]; rfl)
      (fun c hc => if_neg hc) hlg hnd _
  · rw [← List.append_nil (delivered lg x.lvl s.proc.hist)]
    exact shown_foldl_notify (fun _ _ _ => by rw [Obs.result?, if_neg fun h => hevt h.2]; rfl)
      (fun c hc => if_neg fun h => hc h.1) hlg hnd _

section

variable (x : Ctx) (lgs : List Log)

/-- From `s` to `s'`, the results `rs` were recorded, and every logger was told
the events `es` and got the results `ds`. -/
structure Logged (es : List Event) (rs ds : List TestResult)
    (s s' : St List SendMsg NestedRun) : Prop where
  results : s'.sr.resultlst = s.sr.resultlst ++ rs
  checked : s'.sr.stats.nChecked = s.sr.stats.nChecked + rs.length
  events : ∀ lg ∈ lgs, eventsOf lg x.lvl s'.proc.hist = eventsOf lg x.lvl s.proc.hist ++ es
  delivered : ∀ lg ∈ lgs, delivered lg x.lvl s'.proc.hist = delivered lg x.lvl s.proc.hist ++ ds
  accepted : ∀ lg ∈ lgs, ∀ tr ∈ ds, lfunStop lg.lfun (.result tr) = none

end

namespace Logged

variable {x : Ctx} {lgs : List Log} {es es' : List Event}
  {rs ds rs' ds' : List TestResult} {s s' s'' : St List SendMsg NestedRun}

theorem trans (h : Logged x lgs es rs ds s s') (h' : Logged x lgs es' rs' ds' s' s'') :
    Logged x lgs (es ++ es') (rs ++ rs') (ds ++ ds') s s'' where
  results := by rw [h'.results, h.results, List.append_assoc]
  checked := by rw [h'.checked, h.checked, List.length_append, Nat.add_assoc]
  events lg hlg := by rw [h'.events lg hlg, h.events lg hlg, List.append_assoc]
  delivered lg hlg := by rw [h'.delivered lg hlg, h.delivered lg hlg, List.append_assoc]
  accepted lg hlg := List.forall_mem_append.mpr ⟨h.accepted lg hlg, h'.accepted lg hlg⟩

/-- Nothing was logged. -/
theorem of_silent (h : Silent x s s') : Logged x lgs [] [] [] s s' where
  results := by
    rw [List.append_nil]
    exact congrArg (fun m => m.2.1.resultlst) h.memory
  checked := congrArg (fun m => m.2.1.stats.nChecked) h.memory
  events lg _ := by rw [List.append_nil, eventsOf, eventsOf, h.seen _ (event?_of_isUser lg)]
  delivered lg _ := by
    rw [List.append_nil, LibCheck.delivered, LibCheck.delivered, h.seen _ (result?_of_isUser lg)]
  accepted _ _ _ htr := absurd htr List.not_mem_nil

/-- Nothing that is logged or recorded has changed. -/
theorem of_same (hsr : s'.sr = s.sr) (hhist : s'.proc.hist = s.proc.hist) :
    Logged x lgs [] [] [] s s' where
  results := by rw [hsr, List.append_nil]
  checked := by rw [hsr]; rfl
  events lg _ := by rw [hhist, List.append_nil]
  delivered lg _ := by rw [hhist, List.append_nil]
  accepted _ _ _ htr := absurd htr List.not_mem_nil

/-- Nothing happened but that the history went on with an observation. -/
theorem observe (o : Obs) (hr : ∀ lg, o.result? lg = none)
    (he : ∀ lg ∈ lgs, (o.event? lg).toList = es) (s : St List SendMsg NestedRun) :
    Logged x lgs es [] [] s (s.onProc (Proc.observe x.lvl o)) where
  results := (List.append_nil _).symm
  checked := rfl
  events lg hlg := by
    show eventsOf lg x.lvl (s.proc.hist ++ [(x.lvl, o)]) = _
    rw [eventsOf, shown_append, he lg hlg]
    rfl
  delivered lg _ := by
    show LibCheck.delivered lg x.lvl (s.proc.hist ++ [(x.lvl, o)]) = _
    rw [LibCheck.delivered, shown_append, hr]
    rfl
  accepted _ _ _ htr := absurd htr List.not_mem_nil

/-- A result is recorded. -/
theorem addFailure (tr : TestResult) (h : srunnerAddFailure tr s = .ok () s') :
    Logged x lgs [] [tr] [] s s' := by
  cases h
  exact
    { results := rfl
      checked := rfl
      events := fun _ _ => (List.append_nil _).symm
      delivered := fun _ _ => (List.append_nil _).symm
      accepted := fun _ _ _ htr => absurd htr List.not_mem_nil }

/-- An event is sent that does not deliver a result. -/
theorem sendEvt {evt : ClEvent} {obj : LogObj} (hlgs : s.heap.lists .loglst = lgs)
    (hnd : (lgs.map Log.lfun).Nodup) (hevt : evt ≠ .endT)
    (h : srunnerSendEvt x obj evt s = .ok () s') :
    Logged x lgs [.log evt obj.outline] [] [] s s' := by
  obtain ⟨hsr, hseen⟩ := srunnerSendEvt_seen hlgs hnd hevt h
  exact
    { results := by rw [hsr, List.append_nil]
      checked := by rw [hsr]; rfl
      events := fun lg hlg => (hseen lg hlg).1
      delivered := fun lg hlg => by rw [(hseen lg hlg).2, List.append_nil]
      accepted := fun _ _ _ htr => absurd htr List.not_mem_nil }

/-- A result is delivered. -/
theorem testEnd {tr : TestResult} (hlgs : s.heap.lists .loglst = lgs)
    (hnd : (lgs.map Log.lfun).Nodup) (h : logTestEnd x tr s = .ok () s') :
    Logged x lgs [.log .endT .null] [] [tr] s s' := by
  obtain ⟨-, hstop, rfl⟩ := srunnerSendEvt_ok h
  rw [hlgs] at hstop ⊢
  exact
    { results := (List.append_nil _).symm
      checked := rfl
      events := fun lg hlg => shown_foldl_notify (fun _ _ _ => by rw [Obs.event?, if_pos rfl]; rfl)
        (fun c hc => if_neg hc) hlg hnd _
      delivered := fun lg hlg => shown_foldl_notify
        (fun _ _ _ => by rw [Obs.result?, if_pos ⟨rfl, rfl⟩]; rfl)
        (fun c hc => if_neg fun h => hc h.1) hlg hnd _
      accepted := fun lg hlg => List.forall_mem_singleton.mpr (hstop lg hlg) }

end Logged

/-! ## iterations -/

section

variable {x : Ctx} {H : Heap List NestedRun} {tc : TCaseId} {I : St List SendMsg NestedRun → Prop}
  {J : ∀ {α : Type}, List (TF NestedRun × Int) → RunM List SendMsg NestedRun α → Prop}
  (hJ : Sequences I J)
include hJ

/-- What one iteration of a test does, its loop does for all of its indices. -/
theorem does_loopFrom {tfun : TF NestedRun}
    (h : ∀ i, J [(tfun, i)] (runIteration x (runNested x) tc tfun i)) (i : Int) (n : Nat) :
    J (((List.range n).map fun r : Nat => i + (r : Int)).map fun j => (tfun, j))
      (loopFrom (runIteration x (runNested x) tc tfun) i n) := by
  induction n generalizing i with
  | zero => exact hJ.pure ()
  | succ n ih =>
      have hall := hJ.bind (h i) fun _ => ih (i + 1)
      have hlist : (List.range (n + 1)).map (fun r : Nat => i + (r : Int)) =
          i :: (List.range n).map fun r : Nat => i + 1 + (r : Int) := by
        rw [List.range_succ_eq_map, List.map_cons, List.map_map]
        refine congrArg₂ List.cons (Int.add_zero i) (List.map_congr_left fun r _ => ?_)
        show i + ((r + 1 : Nat) : Int) = i + 1 + (r : Int)
        omega
      rw [hlist, List.map_cons]
      exact hall

/-- What one iteration does, a test case does for all of its iterations. -/
theorem does_iterations (hI : ∀ s, I s → s.heap = H)
    (h : ∀ tfun ∈ H.lists (.tflst tc), ∀ i,
      J [(tfun, i)] (runIteration x (runNested x) tc tfun i)) :
    J (iterations H tc) (srunnerIterateTcaseTfuns x (runNested x) tc) := by
  have hloop : J (iterations H tc) (forList x (.tflst tc) fun tfun => do
      loopFrom (runIteration x (runNested x) tc tfun) tfun.loopStart
        (tfun.loopEnd - tfun.loopStart).toNat
      pure (none : Option Unit)) := by
    refine does_forList (r := .tflst tc)
      (g := fun tfun => (Int.range tfun.loopStart tfun.loopEnd).map fun i => (tfun, i)) hJ hI
      (fun tfun htfun => ?_) ?_
    · have hbody := hJ.bind (does_loopFrom hJ (h tfun htfun) tfun.loopStart
        (tfun.loopEnd - tfun.loopStart).toNat) fun _ => hJ.pure (none : Option Unit)
      rw [List.append_nil] at hbody
      exact hbody
    · intro tfun s b s' hb
      obtain ⟨_, _, -, hb⟩ := bind_eq_ok.mp hb
      cases hb
      rfl
  have hall := hJ.bind hloop fun _ => hJ.pure ()
  rw [List.append_nil] at hall
  exact hall

end

/-! ## test cases -/

/-- In the middle of a run: the heap is `H`, the message file is open, and the
fork status of the runner is `mode`. -/
structure Midrun (x : Ctx) (H : Heap List NestedRun) (mode : ForkStatus)
    (s : St List SendMsg NestedRun) : Prop where
  heap : s.heap = H
  file1 : s.proc.sendFile1.isSome
  mode : forkStatusOf x.env s.sr.fstat = mode

section

variable {x : Ctx} {H : Heap List NestedRun} {mode : ForkStatus}
  {s s' : St List SendMsg NestedRun}

theorem Midrun.of_silent (h : Midrun x H mode s) (hs : Silent x s s') : Midrun x H mode s' where
  heap := (hs.heap).trans h.heap
  file1 := hs.file1 h.file1
  mode := by
    rw [show s'.sr = s.sr from hs.sr]
    exact h.mode

/-- An event changes nothing but the counter and the history. -/
theorem srunnerSendEvt_frame {evt : ClEvent} {obj : LogObj} (hm : Midrun x H mode s)
    (h : srunnerSendEvt x obj evt s = .ok () s') :
    Midrun x H mode s' ∧ s'.now = s.now ∧ s'.proc.pending = s.proc.pending := by
  obtain ⟨-, -, rfl⟩ := srunnerSendEvt_ok h
  refine ⟨⟨hm.heap, ?_, hm.mode⟩, rfl, Proc.pending_of_getPipe ?_⟩
  · show (List.foldl _ s.proc _).sendFile1.isSome
    rw [Proc.foldl_notify_eq]
    exact hm.file1
  · show (List.foldl _ s.proc _).getPipe = s.proc.getPipe
    rw [Proc.foldl_notify_eq]
    rfl

variable {lgs : List Log} {tc : TCaseId} (hlgs : H.lists .loglst = lgs)
  (hnd : (lgs.map Log.lfun).Nodup)

/-- What the iterations of a test case do. -/
def Iterated (x : Ctx) (lgs : List Log) (H : Heap List NestedRun) (mode : ForkStatus)
    (tc : TCaseId) (s : St List SendMsg NestedRun) (ts : List (TF NestedRun × Int))
    (s' : St List SendMsg NestedRun) : Prop :=
  s'.now = { s.now with test := s.now.test + ts.length } ∧
    s'.proc.pending = (ts.isEmpty && s.proc.pending) ∧
    ∃ rs, Logged x lgs (ts.flatMap (iterationEvents H tc)) rs rs s s' ∧
      (mode = .nofork → s.proc.pending = false →
        List.Forall₂ (Attributed H) (testUnits tc s.now ts) rs)

theorem composes_iterated : Composes (Iterated x lgs H mode tc) where
  refl s := ⟨rfl, by simp, [], .of_silent ⟨rfl, fun _ _ => rfl, id⟩,
    fun _ _ => .nil⟩
  trans := by
    rintro s s' s'' ts ts' ⟨hn, hp, rs, hl, hu⟩ ⟨hn', hp', rs', hl', hu'⟩
    refine ⟨?_, ?_, rs ++ rs', ?_, fun hm hnone => ?_⟩
    · rw [hn', hn, List.length_append, Nat.add_assoc]
    · rw [hp', hp]
      cases ts <;> cases ts' <;> simp
    · rw [List.flatMap_append]
      exact hl.trans hl'
    · rw [testUnits_append]
      have hnone' : s'.proc.pending = false := by rw [hp, hnone, Bool.and_false]
      rw [hn] at hu'
      exact List.rel_append (hu hm hnone) (hu' hm hnone')

include hlgs hnd in
/-- One iteration of a test. -/
theorem does_runIteration (tfun : TF NestedRun) (i : Int) :
    Does (Midrun x H mode) (Iterated x lgs H mode tc) [(tfun, i)]
      (runIteration x (runNested x) tc tfun i) := by
  intro s u s' hm h
  rw [runIteration, update_bind, update_bind] at h
  obtain ⟨_, s1, hstart, h⟩ := bind_eq_ok.mp h
  obtain ⟨tr, s2, htest, h⟩ := bind_eq_ok.mp h
  obtain ⟨_, s3, hadd, hend⟩ := bind_eq_ok.mp h
  have hnow : Logged x lgs [] [] [] s
      { s with now := { s.now with test := s.now.test + 1 } } := .of_same rfl rfl
  have hl0 := hnow.trans (.observe (.iter tc tfun.ttest.name i) (fun _ => rfl)
    (fun _ _ => rfl) _)
  -- the start is logged
  rw [logTestStart, read_bind] at hstart
  have hm0 : Midrun x H mode (St.onProc (Proc.observe x.lvl (.iter tc tfun.ttest.name i))
      { s with now := { s.now with test := s.now.test + 1 } }) := ⟨hm.heap, hm.file1, hm.mode⟩
  obtain ⟨hm1, hnow1, hp1⟩ := srunnerSendEvt_frame hm0 hstart
  have hl1 := Logged.sendEvt ((congrArg (fun h => h.lists .loglst) hm0.heap).trans hlgs)
    hnd (by decide) hstart
  -- the test itself is silent
  have hsil2 : Silent x s1 s2 := silent_of_closed (fun _ hP => hP.tcaseRunTfun tc tfun i) htest
  have hl2 : Logged x lgs [] [] [] s1 s2 := .of_silent hsil2
  have hp2 := tcaseRunTfun_pending hm1.file1 htest
  have hm2 := hm1.of_silent hsil2
  have hnow2 : s2.now = s1.now := hsil2.now
  -- its result is recorded and logged
  have hl3 := hl2.trans (.addFailure tr hadd)
  have hm3 : Midrun x H mode s3 ∧ s3.now = s2.now ∧ s3.proc = s2.proc := by
    cases hadd
    exact ⟨⟨hm2.heap, hm2.file1, hm2.mode⟩, rfl, rfl⟩
  have hl4 := Logged.testEnd ((congrArg (fun h => h.lists .loglst) hm3.1.heap).trans hlgs)
    hnd hend
  obtain ⟨hm4, hnow4, hp4⟩ := srunnerSendEvt_frame hm3.1 hend
  refine ⟨hm4, ?_, ?_, [tr], ?_, ?_⟩
  · rw [hnow4, hm3.2.1, hnow2, hnow1]
    rfl
  · rw [hp4, hm3.2.2, hp2]
    rfl
  · have hall := ((hl0.trans hl1).trans hl3).trans hl4
    rw [hm.heap] at hall
    exact hall
  · intro hnofork hnone
    rw [hnofork] at hm1
    rw [tcaseRunTfun, srunnerForkStatus, read_bind, hm1.mode] at htest
    obtain ⟨hname, hfail⟩ := tcaseRunTfunNofork_rtype hm1.mode hm1.file1 htest
    have hp0 : s1.proc.pending = false := hp1.trans hnone
    rw [hm1.heap] at hname hfail
    rw [hp0, hnow1, Bool.false_or] at hfail
    exact .cons ⟨hname, hfail⟩ .nil

include hlgs hnd in
/-- All iterations of a test case. -/
theorem does_srunnerIterateTcaseTfuns :
    Does (Midrun x H mode) (Iterated x lgs H mode tc) (iterations H tc)
      (srunnerIterateTcaseTfuns x (runNested x) tc) :=
  does_iterations (Does.sequences composes_iterated) (fun _ hm => hm.heap) fun tfun _ i =>
    does_runIteration hlgs hnd tfun i

/-- The unchecked setups of a test case. -/
theorem srunnerRunUncheckedSetup_ok {k : Nat} {b : Bool} (lgs : List Log)
    (hm : Midrun x H mode s) (hk : s.now = ⟨k, 0⟩)
    (h : srunnerRunUncheckedSetup x (runNested x) tc s = .ok b s') :
    (Midrun x H mode s' ∧ s'.now = s.now) ∧ b = !abandoned H k s.proc.pending tc ∧
      s'.proc.pending = ((H.lists (.fixtures .unchSflst tc)).isEmpty && s.proc.pending) ∧
      ∃ rs, rs.length = (if b then 0 else 1) ∧
        (∀ tr ∈ rs, tr.rtype = .failure ∧ tr.tcname = some (H.tcName tc)) ∧
        Logged x lgs [] rs [] s s' := by
  rw [srunnerRunUncheckedSetup, setForkStatus, update_bind, read_bind] at h
  obtain ⟨r, s1, hset, h⟩ := bind_eq_ok.mp h
  rw [srunnerForkStatus, read_bind, setForkStatus, update_bind] at h
  have hsil0 := silent_fstat x .nofork s
  have hp0 : (s.onProc fun p => { p with fstat := .nofork }).proc.pending = s.proc.pending :=
    Proc.pending_of_getPipe rfl
  generalize (s.onProc fun p => { p with fstat := .nofork }) = s0 at hset hsil0 hp0
  have hm0 := hm.of_silent hsil0
  have hnow0 : s0.now = s.now := hsil0.now
  have hsil1 : Silent x s0 s1 := silent_of_closed (fun _ hP => hP.srunnerRunSetup _ _ _ _ _) hset
  have hsil2 := silent_fstat x (forkStatusOf x.env s1.sr.fstat) s1
  have hsil := (hsil0.trans hsil1).trans hsil2
  have hl : Logged x lgs [] [] [] s
      (s1.onProc fun p => { p with fstat := forkStatusOf x.env s1.sr.fstat }) := .of_silent hsil
  obtain ⟨hr, hp⟩ := srunnerRunSetup_pending hm0.file1 hset
  rw [hp0, hm0.heap] at hr hp
  rw [hnow0, hk] at hr
  have hfin : Midrun x H mode s' ∧ s'.now = s.now ∧
      b = !r.isSome ∧ s'.proc.pending = s1.proc.pending ∧
      ∃ rs, rs.length = (if b then 0 else 1) ∧
        (∀ tr ∈ rs, tr.rtype = .failure ∧ tr.tcname = some (H.tcName tc)) ∧
        Logged x lgs [] rs [] s s' := by
    have hm2 := hm.of_silent hsil
    have hnow2 := hsil.now
    cases r with
    | none =>
        cases h
        exact ⟨hm2, hnow2, rfl, Proc.pending_of_getPipe rfl, [], rfl,
          fun _ htr => absurd htr List.not_mem_nil, hl⟩
    | some tr =>
        have hsome := srunnerRunSetup_some hset
        rw [hm0.heap] at hsome
        have hrtype : tr.rtype ≠ .pass := by
          rw [hsome.1]
          decide
        simp only [if_pos hrtype] at h
        obtain ⟨_, s3, hadd, h⟩ := bind_eq_ok.mp h
        have hl3 := hl.trans (.addFailure tr hadd)
        cases hadd
        cases h
        exact ⟨⟨hm2.heap, hm2.file1, hm2.mode⟩, hnow2, rfl, Proc.pending_of_getPipe rfl, [tr], rfl,
          List.forall_mem_singleton.mpr hsome, hl3⟩
  obtain ⟨hm', hnow', hb, hp', hrs⟩ := hfin
  exact ⟨⟨hm', hnow'⟩, by rw [hb, hr]; rfl, hp'.trans hp, hrs⟩

/-- The unchecked teardowns of a test case. -/
theorem srunnerRunUncheckedTeardown_ok {k : Nat} (lgs : List Log)
    (hm : Midrun x H mode s) (hk : s.now = ⟨k, 0⟩)
    (h : srunnerRunUncheckedTeardown x (runNested x) tc s = .ok () s') :
    (Midrun x H mode s' ∧ s'.now = s.now) ∧
      s'.proc.pending = (s.proc.pending || fixturesFail H .unchTflst k tc) ∧
      Logged x lgs [] [] [] s s' := by
  have hsil : Silent x s s' :=
    silent_of_closed (fun _ hP => hP.bind (hP.read _) fun _ _ => hP.srunnerRunTeardown _ _ _) h
  rw [srunnerRunUncheckedTeardown, srunnerForkStatus, read_bind] at h
  refine ⟨⟨hm.of_silent hsil, hsil.now⟩, ?_, .of_silent hsil⟩
  · obtain ⟨r, s1, hrun, h⟩ := bind_eq_ok.mp h
    cases h
    have hp := findSomeM_runTeardown_ok (s.heap.lists (.fixtures .unchTflst tc)) hm.file1 hrun
    rw [hk, hm.heap] at hp
    exact hp

/-- What the steps of a plan do. -/
structure Ran (x : Ctx) (lgs : List Log) (H : Heap List NestedRun) (mode : ForkStatus)
    (s : St List SendMsg NestedRun) (ks : List RunStep) (s' : St List SendMsg NestedRun) :
    Prop where
  carried : (s'.now.tcrun, s'.proc.pending) = ks.foldl (carry H) (s.now.tcrun, s.proc.pending)
  logged : ∃ rs ds, ds.Sublist rs ∧
    rs.length = ds.length + lost H (s.now.tcrun, s.proc.pending) ks ∧
    Logged x lgs (planEvents H (s.now.tcrun, s.proc.pending) ks) rs ds s s' ∧
    (mode = .nofork → (∀ t ∈ foreseen H (s.now.tcrun, s.proc.pending) ks, t.2.1 = false) →
      List.Forall₂ (Attributed H) (planUnits H (s.now.tcrun, s.proc.pending) ks) rs)

theorem composes_ran : Composes (Ran x lgs H mode) where
  refl s := ⟨rfl, [], [], .slnil, rfl, .of_same rfl rfl, fun _ _ => .nil⟩
  trans := by
    rintro s s' s'' ks ks' ⟨hc, rs, ds, hsub, hlen, hl, hu⟩ ⟨hc', rs', ds', hsub', hlen', hl', hu'⟩
    rw [hc] at hc' hlen' hl' hu'
    refine ⟨by rw [hc', List.foldl_append], rs ++ rs', ds ++ ds', hsub.append hsub', ?_, ?_, ?_⟩
    · rw [List.length_append, List.length_append, lost_append]
      omega
    · rw [planEvents_append]
      exact hl.trans hl'
    · intro hm hnone
      rw [foreseen_append, List.forall_mem_append] at hnone
      rw [planUnits_append]
      exact List.rel_append (hu hm hnone.1) (hu' hm hnone.2)

include hlgs hnd in
theorem runTcase_ok {k : Nat} (hm : Midrun x H mode s) (hk : s.now = ⟨k, 0⟩)
    (h : runTcase x (runNested x) tc s = .ok () s') :
    (Midrun x H mode s' ∧ s'.now.tcrun = k) ∧
      s'.proc.pending = leftBehind H k s.proc.pending tc ∧
      ∃ rs ds, ds.Sublist rs ∧
        rs.length = ds.length + (if abandoned H k s.proc.pending tc then 1 else 0) ∧
        Logged x lgs (stepEvents H (abandoned H k s.proc.pending) (.tcase tc)) rs ds s s' ∧
        (mode = .nofork → s.proc.pending = false →
          List.Forall₂ (Attributed H) (caseUnits H k tc) rs) := by
  obtain ⟨b, s1, hset, h⟩ := bind_eq_ok.mp h
  obtain ⟨⟨hm1, hnow1⟩, hb, hp1, rs, hrs, htr, hl1⟩ :=
    srunnerRunUncheckedSetup_ok lgs hm hk hset
  -- without a failure from before, the test case is abandoned for its own
  have hown : s.proc.pending = false →
      abandoned H k s.proc.pending tc = fixturesFail H .unchSflst k tc := by
    intro hnone
    rw [abandoned, hnone, Bool.and_false, Bool.false_or]
  cases hab : abandoned H k s.proc.pending tc with
  | true =>
      rw [hab] at hb
      subst hb
      cases h
      have hne : (H.lists (.fixtures .unchSflst tc)).isEmpty = false := by
        cases he : H.lists (.fixtures .unchSflst tc) with
        | nil => simp [abandoned, fixturesFail, Lists.elems, he] at hab
        | cons f fs => rfl
      refine ⟨⟨hm1, hnow1.symm ▸ congrArg When.tcrun hk⟩, ?_, rs, [], rs.nil_sublist, hrs, ?_,
        ?_⟩
      · rw [hp1, hne, leftBehind, hab]
        rfl
      · rw [stepEvents, if_pos hab]
        exact hl1
      · intro hnofork hnone
        have hf : fixturesFail H .unchSflst k tc = true := (hown hnone).symm.trans hab
        obtain ⟨tr, rfl⟩ := List.length_eq_one_iff.mp hrs
        obtain ⟨hfail, hname⟩ := List.forall_mem_singleton.mp htr
        rw [caseUnits, if_pos hf]
        exact .cons ⟨hname, iff_of_true hfail hf⟩ .nil
  | false =>
      rw [hab] at hb
      subst hb
      cases List.length_eq_zero_iff.mp hrs
      obtain ⟨_, s2, hiter, h⟩ := bind_eq_ok.mp h
      rw [update_bind] at h
      obtain ⟨hm2, hnow2, hp2, ds, hl2, hu2⟩ :=
        does_srunnerIterateTcaseTfuns hlgs hnd s1 _ s2 hm1 hiter
      have hm3 : Midrun x H mode { s2 with now := { s2.now with test := 0 } } :=
        ⟨hm2.heap, hm2.file1, hm2.mode⟩
      have hk3 : ({ s2.now with test := 0 } : When) = ⟨k, 0⟩ := by
        rw [hnow2, hnow1, hk]
      have hl3 : Logged x lgs [] [] [] s2 { s2 with now := { s2.now with test := 0 } } :=
        .of_same rfl rfl
      obtain ⟨⟨hm4, hnow4⟩, hp4, hl4⟩ := srunnerRunUncheckedTeardown_ok lgs hm3 hk3 h
      refine ⟨⟨hm4, by rw [hnow4]; exact congrArg When.tcrun hk3⟩, ?_, ds, ds, .refl ds, rfl, ?_,
        ?_⟩
      · rw [hp4, leftBehind, hab, if_neg (by decide)]
        show (s2.proc.pending || _) = _
        rw [hp2, hp1]
        rfl
      · rw [stepEvents, if_neg (by rw [hab]; decide)]
        have hall := (hl1.trans hl2).trans (hl3.trans hl4)
        simp only [List.append_nil, List.nil_append] at hall
        exact hall
      · intro hnofork hnone
        have hf : fixturesFail H .unchSflst k tc = false := (hown hnone).symm.trans hab
        have hu := hu2 hnofork (by rw [hp1, hnone, Bool.and_false])
        rw [hnow1, hk] at hu
        rw [caseUnits, if_neg (Bool.eq_false_iff.mp hf)]
        exact hu

include hlgs hnd in
/-- A test case. -/
theorem does_srunnerRunTcase :
    Does (Midrun x H mode) (Ran x lgs H mode) [.tcase tc] (srunnerRunTcase x (runNested x) tc) := by
  intro s u s' hm h
  rw [srunnerRunTcase, update_bind, update_bind] at h
  have hnow : Logged x lgs [] [] [] s { s with now := ⟨s.now.tcrun + 1, 0⟩ } :=
    .of_same rfl rfl
  have hl0 := hnow.trans (.observe (.tcase tc) (fun _ => rfl) (fun _ _ => rfl) _)
  have hm0 : Midrun x H mode (St.onProc (Proc.observe x.lvl (.tcase tc))
      { s with now := ⟨s.now.tcrun + 1, 0⟩ }) := ⟨hm.heap, hm.file1, hm.mode⟩
  obtain ⟨⟨hm', hk'⟩, hp, rs, ds, hsub, hlen, hl, hu⟩ := runTcase_ok hlgs hnd hm0 rfl h
  refine ⟨hm', by rw [hk', hp]; rfl, rs, ds, hsub, hlen.trans (congrArg (ds.length + ·) ?_), ?_,
    ?_⟩
  · rw [lost, foreseen, foreseen, List.countP_singleton]
    rfl
  · rw [planEvents, planEvents, List.append_nil]
    exact hl0.trans hl
  · intro hnofork hnone
    have hnone : s.proc.pending = false :=
      hnone (s.now.tcrun + 1, s.proc.pending, tc) List.mem_cons_self
    rw [planUnits, foreseen, foreseen, List.flatMap_singleton]
    exact hu hnofork hnone

include hlgs hnd in
theorem does_logSuiteStart (su : SuiteId) :
    Does (Midrun x H mode) (Ran x lgs H mode) [.suiteStart su] (logSuiteStart x su) := by
  intro s u s' hm h
  rw [logSuiteStart, read_bind] at h
  obtain ⟨hm', hnow, hp⟩ := srunnerSendEvt_frame hm h
  have hl := Logged.sendEvt ((congrArg (fun h => h.lists .loglst) hm.heap).trans hlgs) hnd
    (by decide) h
  rw [hm.heap] at hl
  exact ⟨hm', by rw [hnow, hp]; rfl, [], [], .slnil, rfl, hl,
    fun _ _ => .nil⟩

include hlgs hnd in
theorem does_logSuiteEnd (su : SuiteId) :
    Does (Midrun x H mode) (Ran x lgs H mode) [.suiteEnd su] (logSuiteEnd x su) := by
  intro s u s' hm h
  rw [logSuiteEnd, read_bind] at h
  obtain ⟨hm', hnow, hp⟩ := srunnerSendEvt_frame hm h
  have hl := Logged.sendEvt ((congrArg (fun h => h.lists .loglst) hm.heap).trans hlgs) hnd
    (by decide) h
  rw [hm.heap] at hl
  exact ⟨hm', by rw [hnow, hp]; rfl, [], [], .slnil, rfl, hl,
    fun _ _ => .nil⟩

end

end LibCheck
