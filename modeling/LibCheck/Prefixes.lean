import LibCheck.Endings
import LibCheck.Subunit

/-!
# LibCheck.Prefixes

What the loggers have been told when a run ends, wherever that is.

* `Says` — what a logger was told, and what was recorded.
* `Tells`, `Heard` — what a part of a run that returns tells a logger, and what the logger
  has heard of one that is stopped: the first part of it.
* `heard_until_end` — of a whole run: the events and the names are the first ones of
  those of a run that returns.
* `events_until_end`, `results_until_end` — the events are the first ones of those that
  are expected, and every result that is recorded has reached the loggers, where no test
  case is abandoned.
-/

namespace LibCheck

open Prog

/-! ## steps that can stop -/

section

variable {x : Ctx} {s s' : St List SendMsg NestedRun} {e : Stop}

/-- No callback ends the process over an event without a result. -/
theorem lfunStop_eq_none {obj : LogObj} (hobj : ∀ tr, obj ≠ .result tr) (lfun : LFun) :
    lfunStop lfun obj = none := by
  unfold lfunStop
  split
  · exact absurd rfl (hobj _)
  · exact absurd rfl (hobj _)
  · rfl

/-- Where an event is refused, no logger was told of it: there is no list of loggers. -/
theorem srunnerSendEvt_error {evt : ClEvent} {obj : LogObj}
    (hobj : ∀ lfun, lfunStop lfun obj = none)
    (h : srunnerSendEvt x obj evt s = .error e s') : s.sr.loglst = false ∧ s' = s := by
  cases hlog : s.sr.loglst with
  | true =>
      obtain ⟨t, ht, -⟩ := srunnerSendEvt_of_accepted (x := x) evt hlog hobj
      rw [ht] at h
      cases h
  | false =>
      rw [srunnerSendEvt, forLogs, bind_assoc, read_bind, hlog] at h
      cases h
      exact ⟨rfl, rfl⟩

theorem setupPipe_error (h : (setupPipe : RunM List SendMsg NestedRun Unit) s = .error e s') :
    s' = s := by
  rw [setupPipe, read_bind] at h
  split at h
  · cases h
  rw [read_bind] at h
  split at h
  · cases h
  cases h
  rfl

theorem teardownPipe_error (h : (teardownPipe : RunM List SendMsg NestedRun Unit) s = .error e s') :
    s' = s := by
  rw [teardownPipe, read_bind] at h
  split at h
  · cases h
  rw [read_bind] at h
  split at h
  · cases h
  cases h
  rfl

end

/-! ## what is told -/

section

variable {L : Type → Type} {β : Type} [Lists L]

/-- From `s` to `s'`, the logger was told the events `es`, it named `ns` and got the results
`ds`, and the results `rs` were recorded. -/
structure Says (x : Ctx) (lg : Log) (es : List Event) (ns : List NameEvent)
    (rs ds : List TestResult) (s s' : St L β NestedRun) : Prop where
  events : eventsOf lg x.lvl s'.proc.hist = eventsOf lg x.lvl s.proc.hist ++ es
  names : subunitNames lg x.lvl s'.proc.hist = subunitNames lg x.lvl s.proc.hist ++ ns
  results : Lists.elems s'.sr.resultlst = Lists.elems s.sr.resultlst ++ rs
  delivered : delivered lg x.lvl s'.proc.hist = delivered lg x.lvl s.proc.hist ++ ds

/-- What a part of a run tells a logger: at most `k` of the results that it records are kept
from the logger. -/
def Tells (x : Ctx) (lg : Log) (es : List Event) (ns : List NameEvent) (k : Nat)
    (s s' : St L β NestedRun) : Prop :=
  ∃ rs ds, ds.Sublist rs ∧ rs.length ≤ ds.length + k ∧ Says x lg es ns rs ds s s'

/-- What the logger has heard where it is stopped: the first events and names. -/
def Heard (x : Ctx) (lg : Log) (es : List Event) (ns : List NameEvent) (k : Nat)
    (s s' : St L β NestedRun) : Prop :=
  ∃ es' ns', es' <+: es ∧ ns' <+: ns ∧ Tells x lg es' ns' k s s'

end

section

variable {x : Ctx} {lg : Log} {es es' : List Event} {ns ns' : List NameEvent}
  {rs rs' ds ds' : List TestResult} {k k' : Nat} {s s' s'' : St List SendMsg NestedRun}

namespace Says

theorem trans (h : Says x lg es ns rs ds s s') (h' : Says x lg es' ns' rs' ds' s' s'') :
    Says x lg (es ++ es') (ns ++ ns') (rs ++ rs') (ds ++ ds') s s'' where
  events := by rw [h'.events, h.events, List.append_assoc]
  names := by rw [h'.names, h.names, List.append_assoc]
  results := by rw [h'.results, h.results, List.append_assoc]
  delivered := by rw [h'.delivered, h.delivered, List.append_assoc]

/-- Nothing but user code was seen, and nothing was recorded. -/
theorem of_seen (hseen : ∀ {γ : Type} (g : Obs → Option γ), (∀ o, o.isUser → g o = none) →
      shown g x.lvl s'.proc.hist = shown g x.lvl s.proc.hist)
    (hr : s'.sr.resultlst = s.sr.resultlst) : Says x lg [] [] [] [] s s' where
  events := (hseen _ (event?_of_isUser lg)).trans (List.append_nil _).symm
  names := (hseen _ (nameEvent?_of_isUser lg)).trans (List.append_nil _).symm
  results := by rw [hr, List.append_nil]
  delivered := (hseen _ (result?_of_isUser lg)).trans (List.append_nil _).symm

/-- Nothing that a logger sees has changed. -/
theorem of_same (hhist : s'.proc.hist = s.proc.hist) (hr : s'.sr.resultlst = s.sr.resultlst) :
    Says x lg [] [] [] [] s s' :=
  of_seen (fun g _ => congrArg (shown g x.lvl) hhist) hr

theorem of_logged {lgs : List Log} (hl : Logged x lgs es rs ds s s') (hlg : lg ∈ lgs)
    (hn : subunitNames lg x.lvl s'.proc.hist = subunitNames lg x.lvl s.proc.hist ++ ns) :
    Says x lg es ns rs ds s s' :=
  ⟨hl.events lg hlg, hn, hl.results, hl.delivered lg hlg⟩

/-- An event around the tests. -/
theorem of_event {lgs : List Log} {evt : ClEvent} {obj : LogObj} (hlgs : s.heap.lists .loglst = lgs)
    (hnd : (lgs.map Log.lfun).Nodup) (hlg : lg ∈ lgs) (hevt : evt ≠ .endT)
    (hpacket : ∀ c : LogCall, c.evt = evt → subunitPacket c = none)
    (h : srunnerSendEvt x obj evt s = .ok () s') :
    Says x lg [.log evt obj.outline] [] [] [] s s' := by
  have hnone : ∀ c : LogCall, c.evt = evt → Obs.nameEvent? lg (.log c) = none := by
    intro c hc
    rw [Obs.nameEvent?, hpacket c hc]
    exact ite_self _
  have hnames : subunitNames lg x.lvl s'.proc.hist = subunitNames lg x.lvl s.proc.hist :=
    srunnerSendEvt_unseen hnone h
  exact .of_logged (.sendEvt hlgs hnd hevt h) hlg (hnames.trans (List.append_nil _).symm)

end Says

theorem Says.tells (h : Says x lg es ns [] [] s s') : Tells x lg es ns 0 s s' :=
  ⟨[], [], .slnil, Nat.le_refl _, h⟩

theorem Says.heard (h : Says x lg [] [] [] [] s s') : Heard x lg es ns k s s' :=
  ⟨[], [], List.nil_prefix, List.nil_prefix, [], [], .slnil, Nat.zero_le _, h⟩

theorem Tells.trans (h : Tells x lg es ns k s s') (h' : Tells x lg es' ns' k' s' s'') :
    Tells x lg (es ++ es') (ns ++ ns') (k + k') s s'' := by
  obtain ⟨rs, ds, hsub, hlen, hsays⟩ := h
  obtain ⟨rs', ds', hsub', hlen', hsays'⟩ := h'
  refine ⟨rs ++ rs', ds ++ ds', hsub.append hsub', ?_, hsays.trans hsays'⟩
  rw [List.length_append, List.length_append]
  omega

theorem Tells.heard (h : Tells x lg es ns k s s') : Heard x lg es ns k s s' :=
  ⟨es, ns, List.prefix_rfl, List.prefix_rfl, h⟩

theorem Heard.early (es' : List Event) (ns' : List NameEvent) (k' : Nat)
    (h : Heard x lg es ns k s s') : Heard x lg (es ++ es') (ns ++ ns') (k + k') s s' := by
  obtain ⟨es₁, ns₁, hes, hns, rs, ds, hsub, hlen, hsays⟩ := h
  exact ⟨es₁, ns₁, hes.trans (List.prefix_append es es'), hns.trans (List.prefix_append ns ns'),
    rs, ds, hsub, by omega, hsays⟩

theorem Tells.late (h : Tells x lg es ns k s s') (h' : Heard x lg es' ns' k' s' s'') :
    Heard x lg (es ++ es') (ns ++ ns') (k + k') s s'' := by
  obtain ⟨es₁, ns₁, hes, hns, htells⟩ := h'
  exact ⟨es ++ es₁, ns ++ ns₁, (List.prefix_append_right_inj es).mpr hes,
    (List.prefix_append_right_inj ns).mpr hns, h.trans htells⟩

end

/-! ## iterations -/

section

variable {x : Ctx} {lg : Log} {H : Heap List NestedRun} {mode : ForkStatus} {tc : TCaseId}
  {s s' : St List SendMsg NestedRun}

/-- What the iterations of a test case do and name. -/
def IterTells (x : Ctx) (lg : Log) (H : Heap List NestedRun) (mode : ForkStatus) (tc : TCaseId)
    (s : St List SendMsg NestedRun) (ts : List (TF NestedRun × Int))
    (s' : St List SendMsg NestedRun) : Prop :=
  Iterated x (H.lists .loglst) H mode tc s ts s' ∧ IterationsNamed x lg H mode tc s ts s'

/-- What the logger has heard where they are stopped. -/
def IterHeard (x : Ctx) (lg : Log) (H : Heap List NestedRun) (mode : ForkStatus) (tc : TCaseId)
    (s : St List SendMsg NestedRun) (ts : List (TF NestedRun × Int))
    (s' : St List SendMsg NestedRun) : Prop :=
  Heard x lg (ts.flatMap (iterationEvents H tc))
    ((startedIn tc s.proc.pending s.now ts).flatMap (Started.names H mode)) 0 s s'

theorem composes_iterTells : Composes (IterTells x lg H mode tc) where
  refl s := ⟨composes_iterated.refl s, (composes_iterationsNamed lg mode).refl s⟩
  trans h h' :=
    ⟨composes_iterated.trans h.1 h'.1, (composes_iterationsNamed lg mode).trans h.2 h'.2⟩

variable (hlg : lg ∈ H.lists .loglst) (hnd : ((H.lists .loglst).map Log.lfun).Nodup)
include hlg

theorem IterTells.tells {ts : List (TF NestedRun × Int)} (h : IterTells x lg H mode tc s ts s') :
    Tells x lg (ts.flatMap (iterationEvents H tc))
      ((startedIn tc s.proc.pending s.now ts).flatMap (Started.names H mode)) 0 s s' := by
  obtain ⟨⟨-, -, rs, hl, -⟩, -, -, hnames⟩ := h
  exact ⟨rs, rs, .refl rs, Nat.le_refl _, .of_logged hl hlg hnames⟩

theorem interrupts_iterTells : Interrupts (IterTells x lg H mode tc)
    (IterHeard x lg H mode tc) where
  early := by
    intro s s' ts ts' h
    rw [IterHeard, List.flatMap_append, startedIn_append, List.flatMap_append]
    exact h.early _ _ 0
  late := by
    intro s s' s'' ts ts' h h'
    have hall := (h.tells hlg).late h'
    rw [h.1.1, h.1.2.1] at hall
    rw [IterHeard, List.flatMap_append, startedIn_append, List.flatMap_append]
    exact hall

include hnd

/-- The events of an iteration: what is missing where it is stopped comes last. -/
theorem walks_runIteration_tells (tfun : TF NestedRun) (i : Int) :
    Walks (Midrun x H mode) (IterTells x lg H mode tc) (IterHeard x lg H mode tc) [(tfun, i)]
      (runIteration x (runNested x) tc tfun i) := by
  refine Walks.of_cases (fun s u s' hm h => ?_) fun s e s' hm h => ?_
  · obtain ⟨hm', hdone⟩ := does_runIteration rfl hnd tfun i s u s' hm h
    exact ⟨hm', hdone, (does_runIteration_names hlg hnd tfun i s u s' hm h).2⟩
  rw [runIteration, update_bind, update_bind] at h
  have hm0 : Midrun x H mode (St.onProc (Proc.observe x.lvl (.iter tc tfun.ttest.name i))
      { s with now := { s.now with test := s.now.test + 1 } }) := ⟨hm.heap, hm.file1, hm.mode⟩
  have hiter : Says x lg [.iter tc tfun.ttest.name i] [.iter tc tfun.ttest.name] [] [] s
      (St.onProc (Proc.observe x.lvl (.iter tc tfun.ttest.name i))
        { s with now := { s.now with test := s.now.test + 1 } }) :=
    ⟨shown_append .., shown_append .., (List.append_nil _).symm, shown_append ..⟩
  generalize hs0 : St.onProc (Proc.observe x.lvl (.iter tc tfun.ttest.name i))
    { s with now := { s.now with test := s.now.test + 1 } } = s0 at h hm0 hiter
  suffices hheard : Heard x lg
      [.log .startT (.testName (testStartName (H.tcName tc) tfun.ttest.name)), .log .endT .null]
      [.start (testStartName (H.tcName tc) tfun.ttest.name), .stop (joinNames (H.tcName tc).bytes
        (Started.resultName H mode ⟨s.proc.pending, s0.now, tc, tfun⟩).bytes)] 0 s0 s' by
    rw [← hs0] at hheard hiter
    exact hiter.tells.late hheard
  obtain hstart | ⟨_, s1, hstart, h⟩ := bind_eq_error.mp h
  · rw [logTestStart, read_bind] at hstart
    obtain ⟨-, rfl⟩ := srunnerSendEvt_error (lfunStop_eq_none (by rintro _ ⟨⟩)) hstart
    exact (Says.of_same rfl rfl).heard
  rw [logTestStart, read_bind] at hstart
  obtain ⟨hm1, hnow1, hp1⟩ := srunnerSendEvt_frame hm0 hstart
  have hloglst : s1.sr.loglst = true := by
    obtain ⟨hlog, -, rfl⟩ := srunnerSendEvt_ok hstart
    exact hlog
  have hname := subunitNames_sendEvt
    (e := .start (testStartName (H.tcName tc) tfun.ttest.name)) (hm0.heap ▸ hnd) (hm0.heap ▸ hlg)
    (fun c hevt hobj => by
      rw [subunitPacket, hevt, hobj, hm0.heap]
      rfl) hstart
  have hbegun : Says x lg [.log .startT (.testName (testStartName (H.tcName tc) tfun.ttest.name))]
      [.start (testStartName (H.tcName tc) tfun.ttest.name)] [] [] s0 s1 := by
    rw [← hm0.heap] at hname ⊢
    exact .of_logged (.sendEvt rfl (hm0.heap ▸ hnd) (by decide) hstart) (hm0.heap ▸ hlg) hname
  suffices hheard : Heard x lg [.log .endT .null] [.stop (joinNames (H.tcName tc).bytes
      (Started.resultName H mode ⟨s.proc.pending, s0.now, tc, tfun⟩).bytes)] 0 s1 s' from
    hbegun.tells.late hheard
  obtain htest | ⟨tr, s2, htest, h⟩ := bind_eq_error.mp h
  · have hresults := (testClosed_results.tcaseRunTfun tc tfun i).of_error htest
    exact (Says.of_seen (fun g hg =>
      ((testClosed_unseen hg).tcaseRunTfun tc tfun i).of_error htest) hresults).heard
  obtain hadd | ⟨_, s3, hadd, hend⟩ := bind_eq_error.mp h
  · cases hadd
  -- the result has a verdict and a name: it is delivered
  obtain ⟨htcname, -⟩ := tcaseRunTfun_names hm1.mode hm1.file1 htest
  have hclass : tr.Classified := returns_tcaseRunTfun ⟨_, _, htest⟩
  have hsr2 : s2.sr = s1.sr := (silent_of_closed (fun _ hP => hP.tcaseRunTfun tc tfun i) htest).sr
  obtain ⟨hnone, -⟩ := srunnerSendEvt_error (lfunStop_classified hclass
      (by rw [htcname]; simp)) hend
  cases hadd
  have hnone : s2.sr.loglst = false := hnone
  rw [hsr2, hloglst] at hnone
  cases hnone

end

/-! ## test cases -/

/-- The names of the tests that a plan starts. -/
def planNames {L : Type → Type} [Lists L] (H : Heap L NestedRun) (mode : ForkStatus)
    (c : Nat × Bool)
    (ks : List RunStep) : List NameEvent :=
  (planStarted H c ks).flatMap (Started.names H mode)

theorem SameCases.planNames {L L' : Type → Type} [Lists L] [Lists L'] {H : Heap L NestedRun}
    {K : Heap L' NestedRun} (h : SameCases H K) (mode : ForkStatus) (c : Nat × Bool)
    (ks : List RunStep) : planNames K mode c ks = planNames H mode c ks := by
  rw [LibCheck.planNames, LibCheck.planNames, h.planStarted]
  exact List.flatMap_congr fun t _ => h.startedNames t

section

variable {x : Ctx} {lg : Log} {H : Heap List NestedRun} {mode : ForkStatus} {tc : TCaseId}
  {s s' : St List SendMsg NestedRun}

/-- What the steps of a plan do and name. -/
def PlanTells (x : Ctx) (lg : Log) (H : Heap List NestedRun) (mode : ForkStatus)
    (s : St List SendMsg NestedRun) (ks : List RunStep) (s' : St List SendMsg NestedRun) : Prop :=
  Ran x (H.lists .loglst) H mode s ks s' ∧ PlanNamed x lg H mode s ks s'

/-- What the logger has heard where they are stopped. -/
def PlanHeard (x : Ctx) (lg : Log) (H : Heap List NestedRun) (mode : ForkStatus)
    (s : St List SendMsg NestedRun) (ks : List RunStep) (s' : St List SendMsg NestedRun) : Prop :=
  Heard x lg (planEvents H (s.now.tcrun, s.proc.pending) ks)
    (planNames H mode (s.now.tcrun, s.proc.pending) ks)
    (lost H (s.now.tcrun, s.proc.pending) ks) s s'

theorem composes_planTells : Composes (PlanTells x lg H mode) where
  refl s := ⟨composes_ran.refl s, (composes_planNamed lg mode).refl s⟩
  trans h h' := ⟨composes_ran.trans h.1 h'.1, (composes_planNamed lg mode).trans h.2 h'.2⟩

theorem planNames_append (c : Nat × Bool) (ks ks' : List RunStep) :
    planNames H mode c (ks ++ ks') =
      planNames H mode c ks ++ planNames H mode (ks.foldl (carry H) c) ks' := by
  rw [planNames, planStarted, foreseen_append, List.flatMap_append, List.flatMap_append]
  rfl

variable (hlg : lg ∈ H.lists .loglst) (hnd : ((H.lists .loglst).map Log.lfun).Nodup)
include hlg

theorem PlanTells.tells {ks : List RunStep} (h : PlanTells x lg H mode s ks s') :
    Tells x lg (planEvents H (s.now.tcrun, s.proc.pending) ks)
      (planNames H mode (s.now.tcrun, s.proc.pending) ks)
      (lost H (s.now.tcrun, s.proc.pending) ks) s s' := by
  obtain ⟨⟨-, rs, ds, hsub, hlen, hl, -⟩, -, hnames⟩ := h
  exact ⟨rs, ds, hsub, hlen.le, .of_logged hl hlg hnames⟩

theorem interrupts_planTells : Interrupts (PlanTells x lg H mode) (PlanHeard x lg H mode) where
  early := by
    intro s s' ks ks' h
    rw [PlanHeard, planEvents_append, planNames_append, lost_append]
    exact h.early _ _ _
  late := by
    intro s s' s'' ks ks' h h'
    have hall := (h.tells hlg).late h'
    rw [h.1.carried] at hall
    rw [PlanHeard, planEvents_append, planNames_append, lost_append]
    exact hall

omit hlg in
/-- The events around the test cases. -/
theorem walks_suiteEvent {evt : ClEvent} {y : RunM List SendMsg NestedRun Unit}
    (obj : St List SendMsg NestedRun → LogObj) (hy : ∀ s, y s = srunnerSendEvt x (obj s) evt s)
    (hobj : ∀ s tr, obj s ≠ .result tr) {step : RunStep}
    (hran : Does (Midrun x H mode) (Ran x (H.lists .loglst) H mode) [step] y)
    (hnamed : Does (Midrun x H mode) (PlanNamed x lg H mode) [step] y) :
    Walks (Midrun x H mode) (PlanTells x lg H mode) (PlanHeard x lg H mode) [step] y := by
  refine Walks.of_cases (fun s u s' hm h => ?_) fun s e s' hm h => ?_
  · obtain ⟨hm', hdone⟩ := hran s u s' hm h
    exact ⟨hm', hdone, (hnamed s u s' hm h).2⟩
  · rw [hy] at h
    obtain ⟨-, rfl⟩ := srunnerSendEvt_error (lfunStop_eq_none (hobj s)) h
    exact (Says.of_same rfl rfl).heard

include hnd

/-- A test case: its unchecked fixtures tell the loggers nothing. -/
theorem walks_srunnerRunTcase_tells :
    Walks (Midrun x H mode) (PlanTells x lg H mode) (PlanHeard x lg H mode) [.tcase tc]
      (srunnerRunTcase x (runNested x) tc) := by
  refine Walks.of_cases (fun s u s' hm h => ?_) fun s e s' hm h => ?_
  · obtain ⟨hm', hdone⟩ := does_srunnerRunTcase rfl hnd s u s' hm h
    exact ⟨hm', hdone, (does_srunnerRunTcase_names hlg hnd s u s' hm h).2⟩
  rw [srunnerRunTcase, update_bind, update_bind] at h
  have hm0 : Midrun x H mode (St.onProc (Proc.observe x.lvl (.tcase tc))
      { s with now := ⟨s.now.tcrun + 1, 0⟩ }) := ⟨hm.heap, hm.file1, hm.mode⟩
  have hcase : Says x lg [] [] [] [] s (St.onProc (Proc.observe x.lvl (.tcase tc))
      { s with now := ⟨s.now.tcrun + 1, 0⟩ }) :=
    ⟨shown_append .., shown_append .., (List.append_nil _).symm, shown_append ..⟩
  have hp0 : (St.onProc (Proc.observe x.lvl (.tcase tc))
      { s with now := ⟨s.now.tcrun + 1, 0⟩ }).proc.pending = s.proc.pending :=
    Proc.pending_of_getPipe rfl
  obtain hset | ⟨b, s1, hset, h⟩ := bind_eq_error.mp h
  · have hsetup : Says x lg [] [] [] [] _ s' := .of_seen (fun g hg =>
      (unseen_srunnerRunUncheckedSetup hg tc).of_error hset) (srunnerRunUncheckedSetup_error hset)
    exact (hcase.trans hsetup).heard
  obtain ⟨⟨hm1, hnow1⟩, hb, hp1, rs, hrs, -, hl1⟩ :=
    srunnerRunUncheckedSetup_ok (H.lists .loglst) hm0 rfl hset
  have hab : abandoned H (s.now.tcrun + 1) s.proc.pending tc = !b := by
    rw [hb, hp0, Bool.not_not]
  cases b with
  | false => cases h
  | true =>
      cases List.length_eq_zero_iff.mp hrs
      have hnames1 := srunnerRunUncheckedSetup_seen _ (nameEvent?_of_isUser lg) hset
      have hsetup := hcase.trans (.of_logged hl1 hlg (hnames1.trans (List.append_nil _).symm))
      have hevents : planEvents H (s.now.tcrun, s.proc.pending) [.tcase tc] =
          (iterations H tc).flatMap (iterationEvents H tc) := by
        rw [planEvents, planEvents, List.append_nil, stepEvents, hab]
        rfl
      have hstarted : planStarted H (s.now.tcrun, s.proc.pending) [.tcase tc] =
          startedIn tc s1.proc.pending s1.now (iterations H tc) := by
        rw [planStarted, foreseen, foreseen, List.flatMap_singleton, caseStarted, hab,
          hp1, hp0, hnow1]
        rfl
      have hlost : lost H (s.now.tcrun, s.proc.pending) [.tcase tc] = 0 := by
        rw [lost, foreseen, foreseen, List.countP_singleton, hab]
        rfl
      suffices hheard : IterHeard x lg H mode tc s1 (iterations H tc) s' by
        rw [PlanHeard, planNames, hevents, hstarted, hlost]
        exact hsetup.tells.late hheard
      have hwalks : Walks (Midrun x H mode) (IterTells x lg H mode tc) (IterHeard x lg H mode tc)
          (iterations H tc) (srunnerIterateTcaseTfuns x (runNested x) tc) :=
        does_iterations (Walks.sequences composes_iterTells (interrupts_iterTells hlg))
          (fun _ hm => hm.heap) fun tfun _ i => walks_runIteration_tells hlg hnd tfun i
      obtain hiter | ⟨_, s2, hiter, h⟩ := bind_eq_error.mp h
      · exact hwalks.of_error hm1 hiter
      rw [update_bind] at h
      have hspares := sparesResults_srunnerRunUncheckedTeardown (x := x) tc
      have hteardown : Says x lg [] [] [] [] s2 s' := by
        have hrest : Says x lg [] [] [] [] _ s' := .of_seen (fun g hg =>
          (unseen_srunnerRunUncheckedTeardown hg tc).of_error h) (hspares.of_error h)
        exact ⟨hrest.events, hrest.names, hrest.results, hrest.delivered⟩
      have hall := (((hwalks.of_ok hm1 hiter).2.tells hlg).trans hteardown.tells).heard
      rw [List.append_nil, List.append_nil] at hall
      exact hall

end

/-! ## runs -/

section

variable {x : Ctx} {lg : Log} {lgs : List Log} {s s' : St List SendMsg NestedRun} {a : RunArgs}

/-- The events of a run that returns. -/
def runEvents {L : Type → Type} [Lists L] (H : Heap L NestedRun) (c : Nat × Bool)
    (ks : List RunStep) : List Event :=
  [.log .initlogSr .null, .log .startSr .null] ++ planEvents H c ks ++
    [.log .endSr .null, .log .endlogSr .null]

/-- An event of the runner names no test. -/
theorem subunitPacket_runner {evt : ClEvent}
    (hevt : evt ∈ [ClEvent.initlogSr, .startSr, .endSr, .endlogSr]) (c : LogCall)
    (hc : c.evt = evt) :
    subunitPacket c = none := by
  rw [subunitPacket, hc]
  simp only [List.mem_cons, List.not_mem_nil, or_false] at hevt
  rcases hevt with rfl | rfl | rfl | rfl <;> rfl

/-- Only events of the runner were seen. -/
theorem Says.of_runner {es : List Event}
    (hevents : eventsOf lg x.lvl s'.proc.hist = eventsOf lg x.lvl s.proc.hist ++ es)
    (hseen : ∀ {γ : Type} (g : Obs → Option γ),
      (∀ c : LogCall, c.evt ∈ [ClEvent.initlogSr, .startSr, .endSr, .endlogSr] →
        g (.log c) = none) →
        shown g x.lvl s'.proc.hist = shown g x.lvl s.proc.hist)
    (hr : s'.sr.resultlst = s.sr.resultlst) : Says x lg es [] [] [] s s' where
  events := hevents
  names := by
    refine (hseen _ fun c hc => ?_).trans (List.append_nil _).symm
    rw [Obs.nameEvent?, subunitPacket_runner hc c rfl]
    exact ite_self _
  results := by rw [hr, List.append_nil]
  delivered := by
    refine (hseen _ fun c hc => if_neg fun he => ?_).trans (List.append_nil _).symm
    rw [he.2] at hc
    exact absurd hc (by decide)

/-- The suites of a run begin after two events. -/
theorem EntersSuites.loggedEvents {s1 : St List SendMsg NestedRun} (h : EntersSuites x a s s1)
    (hlg : lg ∈ registered x s.sr a.printMode) :
    Says x lg [.log .initlogSr .null, .log .startSr .null] [] [] [] s s1 :=
  .of_runner (h.events lg hlg) h.seen (by rw [h.runner])

/-- They are left with two events. -/
theorem LeavesSuites.loggedEvents (h : LeavesSuites x lgs s s') (hlg : lg ∈ lgs) :
    Says x lg [.log .endSr .null, .log .endlogSr .null] [] [] [] s s' :=
  .of_runner (h.events lg hlg) h.seen (by rw [h.runner])

/-- A run that stops before its suites. -/
theorem startRun_heard {e : Stop} {mode : PrintOutput} (hlg : lg ∈ registered x s.sr mode)
    (h : startRun x mode (runStart x s) = .error e s') :
    Heard x lg [.log .initlogSr .null, .log .startSr .null] [] 0 s s' := by
  obtain hsetup | ⟨_, s1, hsetup, h⟩ := bind_eq_error.mp h
  · cases setupPipe_error hsetup
    have hsame : Says x lg [] [] [] [] s (runStart x s) := .of_same rfl rfl
    exact hsame.heard
  have hsr1 : s1.sr = s.sr := congrArg (fun m => m.2.1) (keeps_setupPipe.of_ok hsetup)
  have hhist1 : s1.proc.hist = s.proc.hist := congrArg Prod.fst (keeps_hist_setupPipe.of_ok hsetup)
  have hnd := nodup_registered x s.sr mode
  generalize hlgs : registered x s.sr mode = lgs at hlg hnd
  have hlgs1 : (logging lgs s1).heap.lists .loglst = lgs := St.lists_setList_self ..
  have hresults1 : s1.sr.resultlst = s.sr.resultlst := congrArg SRunner.resultlst hsr1
  have hlogging : Says x lg [] [] [] [] s (logging lgs s1) := .of_same hhist1 hresults1
  obtain hinit | ⟨_, s2, hinit, hstart⟩ := bind_eq_error.mp h
  · rw [srunnerInitLogging_apply, hsr1, hlgs] at hinit
    obtain ⟨-, rfl⟩ := srunnerSendEvt_error (lfunStop_eq_none (by rintro _ ⟨⟩)) hinit
    exact hlogging.heard
  · rw [srunnerInitLogging_apply, hsr1, hlgs] at hinit
    obtain ⟨-, rfl⟩ := srunnerSendEvt_error (lfunStop_eq_none (by rintro _ ⟨⟩)) hstart
    have hevt := Says.of_event hlgs1 hnd hlg (by decide) (subunitPacket_runner (by decide)) hinit
    exact (hlogging.trans hevt).tells.heard.early [.log .startSr .null] [] 0

theorem srunnerEndLogging_error {e : Stop} (h : srunnerEndLogging x s = .error e s') :
    s' = s ∨ srunnerSendEvt x .null .endlogSr s = .ok () s' := by
  obtain hevt | ⟨_, s1, hevt, h⟩ := bind_eq_error.mp h
  · exact .inl (srunnerSendEvt_error (lfunStop_eq_none (by rintro _ ⟨⟩)) hevt).2
  obtain hclose | ⟨_, _, -, h⟩ := bind_eq_error.mp h
  · have hsame : Maintains (fun t : St List SendMsg NestedRun => t = s1) (fun _ t => t = s1)
        (forLogs x fun _ => pure (none : Option Unit)) :=
      Maintains.bind (Maintains.read _) fun _ => Maintains.ite
        (fun t ht => Maintains.findSomeM (fun _ _ => Maintains.pure none) t ht)
        (Maintains.throw fun _ ht => ht)
    cases hsame.of_error rfl hclose
    exact .inr hevt
  · cases h

/-- A run after its suites, also where it stops. -/
theorem finishRun_heard (hlgs : s.heap.lists .loglst = lgs) (hnd : (lgs.map Log.lfun).Nodup)
    (hlg : lg ∈ lgs) :
    Heard x lg [.log .endSr .null, .log .endlogSr .null] [] 0 s (endState (finishRun x s)) := by
  cases h : finishRun x s with
  | ok u s' =>
      obtain ⟨_, s1, hend, h⟩ := bind_eq_ok.mp h
      obtain ⟨_, s2, hlogging, h⟩ := bind_eq_ok.mp h
      obtain ⟨_, s3, htear, h⟩ := bind_eq_ok.mp h
      cases h
      exact ((leavesSuites hlgs hnd hend hlogging htear).loggedEvents hlg).tells.heard
  | error e s' =>
      show Heard x lg _ _ _ s s'
      obtain hend | ⟨_, s1, hend, h⟩ := bind_eq_error.mp h
      · obtain ⟨-, rfl⟩ := srunnerSendEvt_error (lfunStop_eq_none (by rintro _ ⟨⟩)) hend
        exact (Says.of_same rfl rfl).heard
      have hsays1 : Says x lg [.log .endSr .null] [] [] [] s s1 :=
        .of_event hlgs hnd hlg (by decide) (subunitPacket_runner (by decide)) hend
      have hlgs1 : s1.heap.lists .loglst = lgs := by
        obtain ⟨-, -, rfl⟩ := srunnerSendEvt_ok hend
        exact hlgs
      have hsays2 : ∀ {t}, srunnerSendEvt x .null .endlogSr s1 = .ok () t →
          Says x lg [.log .endlogSr .null] [] [] [] s1 t :=
        fun ht => .of_event hlgs1 hnd hlg (by decide) (subunitPacket_runner (by decide)) ht
      obtain hlogging | ⟨_, s2, hlogging, h⟩ := bind_eq_error.mp h
      · obtain rfl | hevt := srunnerEndLogging_error hlogging
        · exact hsays1.tells.heard.early [.log .endlogSr .null] [] 0
        · exact (hsays1.trans (hsays2 hevt)).tells.heard
      obtain htear | ⟨_, s3, -, h⟩ := bind_eq_error.mp h
      · cases teardownPipe_error htear
        obtain ⟨t, hevt, hproc, hsr⟩ := srunnerEndLogging_ok hlogging
        have hresults : s'.sr.resultlst = t.sr.resultlst := by rw [hsr]
        have hsame : Says x lg [] [] [] [] t s' := .of_same (congrArg Proc.hist hproc) hresults
        have hall := (hsays1.trans (hsays2 hevt)).trans hsame
        exact hall.tells.heard
      · cases h

/-- The suites of a run, also where they are stopped. -/
theorem srunnerIterateSuites_tells {tags : TCaseId → Option CStr} {s1 : St List SendMsg NestedRun}
    (htags : ∀ tc, s.heap.lists (.tags tc) = tagStringToList (tags tc))
    (hlg : lg ∈ registered x s.sr a.printMode) (henter : EntersSuites x a s s1)
    {ks : List RunStep} (hks : plan (effectiveArgs x.env a) s.heap tags = ks) :
    match srunnerIterateSuites x (runNested x) (effectiveArgs x.env a) s1 with
    | .ok _ s2 => s2.heap.lists .loglst = registered x s.sr a.printMode ∧
        Tells x lg (planEvents s.heap (s.now.tcrun, false) ks)
          (planNames s.heap (forkStatusOf x.env s.sr.fstat) (s.now.tcrun, false) ks)
          (lost s.heap (s.now.tcrun, false) ks) s1 s2
    | .error _ s2 => Heard x lg (planEvents s.heap (s.now.tcrun, false) ks)
        (planNames s.heap (forkStatusOf x.env s.sr.fstat) (s.now.tcrun, false) ks)
        (lost s.heap (s.now.tcrun, false) ks) s1 s2 := by
  generalize effectiveArgs x.env a = b at *
  have hne : ∀ g, LRef.loglst ≠ .tagLst g := by rintro _ ⟨⟩
  have hsame : SameCases s.heap (loadTags b s1).heap := henter.cases.loadTags b
  have hlgs : (loadTags b s1).heap.lists .loglst = registered x s.sr a.printMode :=
    (lists_loadTags hne b s1).trans henter.loggers
  have hnd := nodup_registered x s.sr a.printMode
  have hmode : forkStatusOf x.env s1.sr.fstat = forkStatusOf x.env s.sr.fstat := by
    rw [henter.runner]
  rw [← hlgs] at hlg hnd
  have hwalks := does_suites (Walks.sequences composes_planTells (interrupts_planTells hlg))
    (I := Midrun x (loadTags b s1).heap (forkStatusOf x.env s.sr.fstat)) (fun _ hm => hm.heap)
    (tagged_loadTags (henter.tags htags))
    (fun su => walks_suiteEvent (fun s => .suite su (s.heap.suiteName su)) (fun _ => rfl)
      (by rintro _ _ ⟨⟩) (does_logSuiteStart rfl hnd su)
      (does_suiteEvent_names (fun _ => rfl) (.inl rfl) (fun _ => rfl) fun _ => rfl))
    (fun su => walks_suiteEvent (fun s => .suite su (s.heap.suiteName su)) (fun _ => rfl)
      (by rintro _ _ ⟨⟩) (does_logSuiteEnd rfl hnd su)
      (does_suiteEvent_names (fun _ => rfl) (.inr rfl) (fun _ => rfl) fun _ => rfl))
    fun tc _ => walks_srunnerRunTcase_tells hlg hnd
  have hm : Midrun x (loadTags b s1).heap (forkStatusOf x.env s.sr.fstat) (loadTags b s1) :=
    ⟨rfl, henter.file1, hmode⟩
  have hload : Says x lg [] [] [] [] s1 (loadTags b s1) := .of_same rfl rfl
  -- the plan of the loaded heap is that of the heap before
  have hc : ((loadTags b s1).now.tcrun, (loadTags b s1).proc.pending) = (s.now.tcrun, false) :=
    congrArg₂ Prod.mk (congrArg When.tcrun henter.now) henter.pending
  have hplan : plan b (loadTags b s1).heap tags = ks := (hsame.plan b tags).trans hks
  rw [hplan] at hwalks
  rw [← hsame.planEvents, ← hsame.planNames, ← hsame.lost, ← hc, srunnerIterateSuites_apply]
  cases hrun : forList x .slst (fun su => do
      iterateSuite x (runNested x) b su
      pure (none : Option Unit)) (loadTags b s1) with
  | error e t =>
      have hall := hload.tells.late (hwalks.of_error hm hrun)
      rw [Nat.zero_add] at hall
      exact hall
  | ok u t =>
      obtain ⟨hm', hdone⟩ := hwalks.of_ok hm hrun
      have hfree : Says x lg [] [] [] [] t (freeTags t) := .of_same rfl rfl
      have hall := (hload.tells.trans (hdone.tells hlg)).trans hfree.tells
      simp only [List.append_nil, List.nil_append, Nat.zero_add, Nat.add_zero] at hall
      refine ⟨?_, hall⟩
      rw [lists_freeTags hne, hm'.heap]
      exact hlgs

/-- A run of the abstract machine, also where it stops. -/
theorem srunnerRunTagged_heard {tags : TCaseId → Option CStr} (h2 : s.proc.sendFile2 = none)
    (htags : ∀ tc, s.heap.lists (.tags tc) = tagStringToList (tags tc))
    (hlg : lg ∈ registered x s.sr a.printMode) {ks : List RunStep}
    (hks : plan (effectiveArgs x.env a) s.heap tags = ks) :
    Heard x lg (runEvents s.heap (s.now.tcrun, false) ks)
      (planNames s.heap (forkStatusOf x.env s.sr.fstat) (s.now.tcrun, false) ks)
      (lost s.heap (s.now.tcrun, false) ks) s
        (endState (srunnerRunTagged x (runNested x) a s)) := by
  rw [srunnerRunTagged_split, bind_apply, runEvents]
  cases hstart : (startRun x a.printMode : RunM List SendMsg NestedRun Unit) (runStart x s) with
  | error e s1 =>
      have hall := ((startRun_heard hlg hstart).early (planEvents s.heap (s.now.tcrun, false) ks)
        (planNames s.heap (forkStatusOf x.env s.sr.fstat) (s.now.tcrun, false) ks)
        (lost s.heap (s.now.tcrun, false) ks)).early [.log .endSr .null, .log .endlogSr .null] [] 0
      rw [Nat.zero_add, List.append_nil] at hall
      exact hall
  | ok u s1 =>
      have henter : EntersSuites x a s s1 := by
        obtain ⟨_, s2, hsetup, hrest⟩ := bind_eq_ok.mp hstart
        obtain ⟨_, s3, hlog, hbegin⟩ := bind_eq_ok.mp hrest
        exact entersSuites h2 hsetup hlog hbegin
      have hbegun := (henter.loggedEvents hlg).tells
      have hsuites := srunnerIterateSuites_tells htags hlg henter hks
      simp only [bind_apply]
      cases hiter : srunnerIterateSuites x (runNested x) (effectiveArgs x.env a) s1 with
      | error e s2 =>
          rw [hiter] at hsuites
          have hall := (hbegun.late hsuites).early [.log .endSr .null, .log .endlogSr .null] [] 0
          rw [Nat.zero_add, List.append_nil] at hall
          exact hall
      | ok u s2 =>
          rw [hiter] at hsuites
          obtain ⟨hlgs, htells⟩ := hsuites
          have hall := (hbegun.trans htells).late
            (finishRun_heard hlgs (nodup_registered x s.sr a.printMode) hlg)
          rw [Nat.zero_add, List.append_nil] at hall
          exact hall

end

/-! ## the code -/

/-- **What the loggers are told**, wherever a run ends: the events that a logger was told, and
the names that it gave, are the first ones of those of a run that returns; every result that
is recorded has reached it, but for as many as there are test cases that are abandoned. -/
theorem heard_until_end {x : Ctx} {s : St CkList UInt8 NestedRun} {a : RunArgs}
    {tags : TCaseId → Option CStr} (hs : Legible x.cfg s.proc) (h2 : s.proc.sendFile2 = none)
    (htags : ∀ tc, (s.heap.lists (.tags tc)).elems = tagStringToList (tags tc)) {lg : Log}
    (hlg : lg ∈ registered x s.sr a.printMode) {ks : List RunStep}
    (hks : plan (effectiveArgs x.env a) s.heap tags = ks) :
    Heard x lg (runEvents s.heap (s.now.tcrun, false) ks)
      (planNames s.heap (forkStatusOf x.env s.sr.fstat) (s.now.tcrun, false) ks)
      (lost s.heap (s.now.tcrun, false) ks) s
        (endState (srunnerRunTagged x (runNested x) a s)) := by
  obtain ⟨t, hst⟩ := hs.exists_stRel
  have hend := (sim_srunnerRunTagged (x := x) (keeps_runNested _) (sim_runNested _) a).endState hst
  generalize endState (srunnerRunTagged x (runNested x) a s) = s' at hend ⊢
  cases hst with
  | mk hfile1 hfile2 =>
      have hsame : SameCases s.heap s.heap.abs := ⟨rfl, rfl, fun _ _ _ => rfl⟩
      rw [h2] at hfile2
      cases hfile2
      rename_i f1
      have hheard := srunnerRunTagged_heard (x := x) (a := a) (s := s.abs f1 none) rfl htags hlg
        ((hsame.plan _ tags).trans hks)
      generalize endState (srunnerRunTagged x (runNested x) a (s.abs f1 none)) = t' at hend hheard
      cases hend with
      | mk _ _ =>
          obtain ⟨es, ns, hes, hns, rs, ds, hsub, hlen, hsays⟩ := hheard
          refine ⟨es, ns, ?_, ?_, rs, ds, hsub, ?_,
            hsays.events, hsays.names, hsays.results, hsays.delivered⟩
          · rw [runEvents, ← hsame.planEvents]
            exact hes
          · rw [← hsame.planNames]
            exact hns
          · rw [← hsame.lost]
            exact hlen

/-- The events are the first ones of those that are expected, where no test case with tests
is abandoned for the failure of another one. -/
theorem events_until_end {x : Ctx} {s : St CkList UInt8 NestedRun} {a : RunArgs}
    {tags : TCaseId → Option CStr} (hs : Legible x.cfg s.proc) (h2 : s.proc.sendFile2 = none)
    (htags : ∀ tc, (s.heap.lists (.tags tc)).elems = tagStringToList (tags tc)) {lg : Log}
    (hlg : lg ∈ registered x s.sr a.printMode)
    (hown : ∀ c ∈ foreseen s.heap (s.now.tcrun, false) (plan (effectiveArgs x.env a) s.heap tags),
      abandoned s.heap c.1 c.2.1 c.2.2 →
        fixturesFail s.heap .unchSflst c.1 c.2.2 ∨ iterations s.heap c.2.2 = []) :
    ∃ es, es <+: [.log .initlogSr .null, .log .startSr .null] ++
        expectedEvents s.heap s.now.tcrun (plan (effectiveArgs x.env a) s.heap tags) ++
        [.log .endSr .null, .log .endlogSr .null] ∧
      eventsOf lg x.lvl (endState (srunnerRunTagged x (runNested x) a s)).proc.hist =
        eventsOf lg x.lvl s.proc.hist ++ es := by
  obtain ⟨es, _, hes, -, _, _, -, -, hsays⟩ := heard_until_end hs h2 htags hlg rfl
  rw [runEvents, (planEvents_eq_iff s.heap (s.now.tcrun, false) _).mpr hown] at hes
  exact ⟨es, hes, hsays.events⟩

/-- Where no test case is abandoned, every result that is recorded has reached the loggers
when a run ends, wherever that is. -/
theorem results_until_end {x : Ctx} {s : St CkList UInt8 NestedRun} {a : RunArgs}
    {tags : TCaseId → Option CStr} (hs : Legible x.cfg s.proc) (h2 : s.proc.sendFile2 = none)
    (htags : ∀ tc, (s.heap.lists (.tags tc)).elems = tagStringToList (tags tc)) {lg : Log}
    (hlg : lg ∈ registered x s.sr a.printMode)
    (hnone : ∀ c ∈ foreseen s.heap (s.now.tcrun, false) (plan (effectiveArgs x.env a) s.heap tags),
      ¬ abandoned s.heap c.1 c.2.1 c.2.2) :
    ∃ rs, (endState (srunnerRunTagged x (runNested x) a s)).sr.resultlst.elems =
        s.sr.resultlst.elems ++ rs ∧
      delivered lg x.lvl (endState (srunnerRunTagged x (runNested x) a s)).proc.hist =
        delivered lg x.lvl s.proc.hist ++ rs := by
  have hlost : lost s.heap (s.now.tcrun, false) (plan (effectiveArgs x.env a) s.heap tags) = 0 :=
    List.countP_eq_zero.mpr hnone
  obtain ⟨_, _, -, -, rs, ds, hsub, hlen, hsays⟩ := heard_until_end hs h2 htags hlg rfl
  rw [hlost, Nat.add_zero] at hlen
  cases hsub.eq_of_length_le hlen
  exact ⟨rs, hsays.results, hsays.delivered⟩

/-- A test that passes, one that ends the process of the runner, and one more. -/
def Sample.exiting : List (Sample.Case NestedRun) :=
  [⟨fun _ => [], [Sample.test [], Sample.test [.exit 1], Sample.test []], none⟩]

/-- The result of the first test is recorded, and it has reached the loggers. -/
theorem results_until_end_exiting :
    ∃ rs, (endState (srunnerRunTagged Sample.ctx (runNested Sample.ctx) Sample.args
        (Sample.logged Sample.exiting))).sr.resultlst.elems = rs ∧ rs.length = 1 ∧
      delivered Sample.tapLog 0 (endState (srunnerRunTagged Sample.ctx (runNested Sample.ctx)
        Sample.args (Sample.logged Sample.exiting))).proc.hist = rs := by
  have hlen : (endState (srunnerRunTagged Sample.ctx (runNested Sample.ctx) Sample.args
      (Sample.logged Sample.exiting))).sr.resultlst.elems.length = 1 := by
    decide +kernel
  have htap : Sample.tapLog ∈ registered Sample.ctx (Sample.logged Sample.exiting).sr
      Sample.args.printMode := by
    decide +kernel
  obtain ⟨rs, hrs, hdelivered⟩ := results_until_end (x := Sample.ctx) (a := Sample.args)
    (s := Sample.logged Sample.exiting) (legible_of_closed rfl rfl) rfl
    (Sample.elems_tags Sample.exiting .nofork) htap (by decide +kernel)
  have hrs : (endState (srunnerRunTagged Sample.ctx (runNested Sample.ctx) Sample.args
    (Sample.logged Sample.exiting))).sr.resultlst.elems = rs := hrs
  exact ⟨rs, hrs, hrs ▸ hlen, hdelivered⟩

end LibCheck
