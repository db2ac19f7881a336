import LibCheck.Pending
import LibCheck.Select

/-!
# LibCheck.Events

What the loggers of a run are told.

* `eventsOf`, `delivered` — the events one logger is told, and the results
  among them.
* `srunnerSendEvt_ok` — an event reaches every registered logger once.
* `plan` — the suites and test cases of a run, in order.
* `does_suites` — what holds of events around a suite and of
  single test cases holds of the loops over suites and test cases.
-/

namespace LibCheck

open Prog

/-! ## what a logger is told -/

/-- The object of an event, without the contents of a result. -/
def LogObj.outline : LogObj → LogObj
  | .result _ => .null
  | obj => obj

/-- What a logger is told.  Where an iteration of a test begins is noted as
well. -/
inductive Event where
  | iter (tc : TCaseId) (tname : CStr) (i : Int)
  | log (evt : ClEvent) (obj : LogObj)
deriving DecidableEq, Repr

/-- An observation, as an event of the logger. -/
def Obs.event? (lg : Log) : Obs → Option Event
  | .iter tc tname i => some (.iter tc tname i)
  | .log c => if c.log = lg then some (.log c.evt c.obj.outline) else none
  | _ => none

/-- A result that is delivered to the logger with `CLEND_T`. -/
def Obs.result? (lg : Log) : Obs → Option TestResult
  | .log c =>
      if c.log = lg ∧ c.evt = .endT then
        match c.obj with
        | .result tr => some tr
        | _ => none
      else none
  | _ => none

/-- The events of a logger, in the run at nesting level `lvl`. -/
def eventsOf (lg : Log) (lvl : Nat) (hist : List (Nat × Obs)) : List Event :=
  shown (Obs.event? lg) lvl hist

/-- The results delivered to a logger, in the run at nesting level `lvl`. -/
def delivered (lg : Log) (lvl : Nat) (hist : List (Nat × Obs)) : List TestResult :=
  shown (Obs.result? lg) lvl hist

theorem event?_of_isUser (lg : Log) (o : Obs) (h : o.isUser) : o.event? lg = none := by
  cases o <;> first | rfl | cases h

theorem result?_of_isUser (lg : Log) (o : Obs) (h : o.isUser) : o.result? lg = none := by
  cases o <;> first | rfl | cases h

/-! ## sending events -/

/-- The process after a logger was called. -/
def Proc.notify (x : Ctx) (evt : ClEvent) (obj : LogObj) (stats : TestStats)
    (results : List TestResult) (p : Proc β) (lg : Log) : Proc β :=
  let num := if lg.lfun = .tapLfun then tapCount evt p.numTestsRun else p.numTestsRun
  let clock := x.env.logClock p.hist.length
  let xml := if lg.lfun = .xmlLfun then xmlStart clock p.xmlStatics else p.xmlStatics
  { p with
    numTestsRun := num
    xmlStatics := xml
    hist := p.hist ++ [(x.lvl, .log ⟨lg, evt, obj, stats, results, num, clock, xml⟩)] }

theorem callLfun_apply {β ν : Type} (x : Ctx) (lg : Log) (evt : ClEvent) (obj : LogObj)
    (s : St List β ν) :
    callLfun x lg evt obj s =
      match lfunStop lg.lfun obj with
      | none => .ok () (s.onProc fun p => p.notify x evt obj s.sr.stats s.sr.resultlst lg)
      | some e => .error e (s.onProc fun p => p.notify x evt obj s.sr.stats s.sr.resultlst lg) := by
  rw [callLfun, update_bind, read_bind, update_bind, read_bind, read_bind, read_bind, read_bind,
    update_bind]
  by_cases ht : lg.lfun = .tapLfun
  · simp only [St.onProc, Proc.notify, Proc.observe, ht, reduceCtorEq, if_true, if_false]
    cases lfunStop .tapLfun obj <;> rfl
  · by_cases hx : lg.lfun = .xmlLfun
    · simp only [St.onProc, Proc.notify, Proc.observe, hx, reduceCtorEq, if_true, if_false]
      cases lfunStop .xmlLfun obj <;> rfl
    · simp only [St.onProc, Proc.notify, Proc.observe, if_neg ht, if_neg hx]
      cases lfunStop lg.lfun obj <;> rfl

theorem callLfun_ok {β ν : Type} {x : Ctx} {lg : Log} {evt : ClEvent} {obj : LogObj}
    {s s' : St List β ν} (h : callLfun x lg evt obj s = .ok () s') :
    lfunStop lg.lfun obj = none ∧
      s' = s.onProc fun p => p.notify x evt obj s.sr.stats s.sr.resultlst lg := by
  rw [callLfun_apply] at h
  cases hst : lfunStop lg.lfun obj with
  | some e =>
      rw [hst] at h
      cases h
  | none =>
      rw [hst] at h
      cases h
      exact ⟨rfl, rfl⟩

/-- An event that is sent has reached the loggers one after the other. -/
theorem srunnerSendEvt_ok {β ν : Type} {x : Ctx} {evt : ClEvent} {obj : LogObj}
    {s s' : St List β ν} (h : srunnerSendEvt x obj evt s = .ok () s') :
    s.sr.loglst = true ∧ (∀ lg ∈ s.heap.lists .loglst, lfunStop lg.lfun obj = none) ∧
      s' = s.onProc fun p =>
        (s.heap.lists .loglst).foldl (Proc.notify x evt obj s.sr.stats s.sr.resultlst) p := by
  have hwalk : ∀ (lgs : List Log) (t : St List β ν) (r : Option Unit),
      (lgs.findSomeM? fun lg => do
        callLfun x lg evt obj
        pure none : RunM List β ν (Option Unit)) t = .ok r s' →
      (∀ lg ∈ lgs, lfunStop lg.lfun obj = none) ∧ s' = t.onProc fun p =>
        lgs.foldl (Proc.notify x evt obj t.sr.stats t.sr.resultlst) p := by
    intro lgs
    induction lgs with
    | nil =>
        intro t r ht
        cases ht
        exact ⟨fun _ hlg => absurd hlg List.not_mem_nil, rfl⟩
    | cons lg lgs ih =>
        intro t r ht
        obtain ⟨r1, t1, h1, ht⟩ := bind_eq_ok.mp ht
        obtain ⟨_, t2, hcall, h1⟩ := bind_eq_ok.mp h1
        cases h1
        obtain ⟨hstop, rfl⟩ := callLfun_ok hcall
        obtain ⟨hstops, hs'⟩ := ih _ r ht
        exact ⟨List.forall_mem_cons.mpr ⟨hstop, hstops⟩, hs'⟩
  obtain ⟨r, s1, hlogs, h⟩ := bind_eq_ok.mp h
  cases h
  rw [forLogs, read_bind] at hlogs
  by_cases hl : s.sr.loglst = true
  · rw [if_pos hl] at hlogs
    exact ⟨hl, hwalk _ s r hlogs⟩
  · rw [if_neg hl] at hlogs
    cases hlogs

/-- Nothing but the static variables of the callbacks and the history change. -/
theorem Proc.foldl_notify_eq (x : Ctx) (evt : ClEvent) (obj : LogObj) (stats : TestStats)
    (results : List TestResult) (lgs : List Log) (p : Proc β) :
    lgs.foldl (Proc.notify x evt obj stats results) p =
      { p with
        numTestsRun := (lgs.foldl (Proc.notify x evt obj stats results) p).numTestsRun
        xmlStatics := (lgs.foldl (Proc.notify x evt obj stats results) p).xmlStatics
        hist := (lgs.foldl (Proc.notify x evt obj stats results) p).hist } := by
  induction lgs generalizing p with
  | nil => rfl
  | cons lg lgs ih =>
      rw [List.foldl_cons, ih]
      rfl

/-- A view of the history that shows none of the loggers. -/
theorem shown_foldl_notify_of_none {g : Obs → Option γ} {x : Ctx} {evt : ClEvent} {obj : LogObj}
    {stats : TestStats} {results : List TestResult} {lgs : List Log}
    (h : ∀ lg ∈ lgs, ∀ num clock v,
      g (.log ⟨lg, evt, obj, stats, results, num, clock, v⟩) = none) (p : Proc β) :
    shown g x.lvl (lgs.foldl (Proc.notify x evt obj stats results) p).hist =
      shown g x.lvl p.hist := by
  induction lgs generalizing p with
  | nil => rfl
  | cons lg lgs ih =>
      rw [List.foldl_cons, ih fun l hl => h l (List.mem_cons_of_mem lg hl), Proc.notify,
        shown_append,
        h lg List.mem_cons_self _ _ _, Option.toList_none, List.append_nil]

/-- A view of the history that only shows one of the loggers shows the event
once. -/
theorem shown_foldl_notify {g : Obs → Option γ} {x : Ctx} {evt : ClEvent} {obj : LogObj}
    {stats : TestStats} {results : List TestResult} {lg : Log} {os : List γ}
    (hself : ∀ num clock v,
      (g (.log ⟨lg, evt, obj, stats, results, num, clock, v⟩)).toList = os)
    (hother : ∀ c : LogCall, c.log ≠ lg → g (.log c) = none) {lgs : List Log} (hlg : lg ∈ lgs)
    (hnd : (lgs.map Log.lfun).Nodup) (p : Proc β) :
    shown g x.lvl (lgs.foldl (Proc.notify x evt obj stats results) p).hist =
      shown g x.lvl p.hist ++ os := by
  induction lgs generalizing p with
  | nil => exact absurd hlg List.not_mem_nil
  | cons l lgs ih =>
      rw [List.map_cons, List.nodup_cons] at hnd
      by_cases he : l = lg
      · subst he
        have hrest : ∀ l' ∈ lgs, ∀ num clock v,
            g (.log ⟨l', evt, obj, stats, results, num, clock, v⟩) = none := by
          intro l' hl' num clock v
          refine hother _ ?_
          rintro rfl
          exact hnd.1 (List.mem_map_of_mem hl')
        rw [List.foldl_cons, shown_foldl_notify_of_none hrest, Proc.notify, shown_append, hself]
      · have hlg : lg ∈ lgs := (List.mem_cons.mp hlg).resolve_left (Ne.symm he)
        rw [List.foldl_cons, ih hlg hnd.2, Proc.notify, shown_append, hother _ he,
          Option.toList_none,
          List.append_nil]

/-- What the TAP logger counts: the number of a test, or the plan. -/
def Obs.tapNumber? (lg : Log) : Obs → Option (ClEvent × Nat)
  | .log c =>
      if c.log = lg ∧ (c.evt = .endT ∨ c.evt = .endlogSr) then some (c.evt, c.numTestsRun) else none
  | _ => none

/-- The numbers the TAP logger writes, in the run at nesting level `lvl`. -/
def tapNumbers (lg : Log) (lvl : Nat) (hist : List (Nat × Obs)) : List (ClEvent × Nat) :=
  shown (Obs.tapNumber? lg) lvl hist

theorem numTestsRun_foldl_notify {lgs : List Log} (h : .tapLfun ∉ lgs.map Log.lfun) (x : Ctx)
    (evt : ClEvent) (obj : LogObj) (stats : TestStats) (results : List TestResult) (p : Proc β) :
    (lgs.foldl (Proc.notify x evt obj stats results) p).numTestsRun = p.numTestsRun := by
  induction lgs generalizing p with
  | nil => rfl
  | cons lg lgs ih =>
      rw [List.map_cons, List.mem_cons, not_or] at h
      rw [List.foldl_cons, ih h.2, Proc.notify]
      exact if_neg (Ne.symm h.1)

/-- The TAP logger counts the event. -/
theorem tapNumbers_foldl_notify {lg : Log} (htap : lg.lfun = .tapLfun) {lgs : List Log}
    (hlg : lg ∈ lgs) (hnd : (lgs.map Log.lfun).Nodup) (x : Ctx) (evt : ClEvent) (obj : LogObj)
    (stats : TestStats) (results : List TestResult) (p : Proc β) :
    (lgs.foldl (Proc.notify x evt obj stats results) p).numTestsRun =
        tapCount evt p.numTestsRun ∧
      tapNumbers lg x.lvl (lgs.foldl (Proc.notify x evt obj stats results) p).hist =
        tapNumbers lg x.lvl p.hist ++
          if evt = .endT ∨ evt = .endlogSr then [(evt, tapCount evt p.numTestsRun)] else [] := by
  induction lgs generalizing p with
  | nil => exact absurd hlg List.not_mem_nil
  | cons l lgs ih =>
      rw [List.map_cons, List.nodup_cons] at hnd
      rw [List.foldl_cons]
      by_cases he : l = lg
      · subst he
        have hrest : ∀ l' ∈ lgs, ∀ num clock v,
            Obs.tapNumber? l (.log ⟨l', evt, obj, stats, results, num, clock, v⟩) = none := by
          intro l' hl' num clock v
          refine if_neg fun h => ?_
          have hl : l' = l := h.1
          rw [hl] at hl'
          exact hnd.1 (List.mem_map_of_mem hl')
        rw [htap] at hnd
        rw [numTestsRun_foldl_notify hnd.1, tapNumbers,
          shown_foldl_notify_of_none hrest, Proc.notify,
          shown_append]
        simp only [if_pos htap, Obs.tapNumber?, true_and]
        by_cases hevt : evt = .endT ∨ evt = .endlogSr
        · rw [if_pos hevt, if_pos hevt]
          rfl
        · rw [if_neg hevt, if_neg hevt]
          rfl
      · have hlg : lg ∈ lgs := (List.mem_cons.mp hlg).resolve_left (Ne.symm he)
        have hl : l.lfun ≠ .tapLfun := by
          intro h
          rw [h, ← htap] at hnd
          exact hnd.1 (List.mem_map_of_mem hlg)
        obtain ⟨hnum, hshown⟩ := ih hlg hnd.2 (p.notify x evt obj stats results l)
        have hnum1 : (p.notify x evt obj stats results l).numTestsRun = p.numTestsRun := if_neg hl
        have hshown1 : tapNumbers lg x.lvl (p.notify x evt obj stats results l).hist =
            tapNumbers lg x.lvl p.hist := by
          rw [tapNumbers, Proc.notify, shown_append, Obs.tapNumber?, if_neg fun h => he h.1,
            Option.toList_none, List.append_nil]
          rfl
        rw [hnum1] at hnum hshown
        rw [hshown1] at hshown
        exact ⟨hnum, hshown⟩

/-! ## loggers -/

/-- The logger on a file. -/
def loggerOn (x : Ctx) (printMode : PrintOutput) (lfun : LFun) (close : Bool) (lfile : OutFile) :
    Log :=
  ⟨lfile, lfun, close, resolvePrintmode x.env printMode⟩

/-- The logger on a file of the given name, if there is one. -/
def fileLogger (x : Ctx) (printMode : PrintOutput) (fname : Option CStr) (var : EnvVar)
    (lfun : LFun) : List Log :=
  ((logFileName x.env fname var).map srunnerOpenFile).toList.map fun f =>
    loggerOn x printMode lfun (f ≠ .stdout) f

/-- The loggers a run registers. -/
def registered {L : Type → Type} (x : Ctx) (sr : SRunner L) (printMode : PrintOutput) : List Log :=
  [loggerOn x printMode (if printMode ≠ .subunit then .stdoutLfun else .subunitLfun) false
      .stdout] ++
    fileLogger x printMode sr.logFname .ckLogFileName .lfileLfun ++
    fileLogger x printMode sr.xmlFname .ckXmlLogFileName .xmlLfun ++
    fileLogger x printMode sr.tapFname .ckTapLogFileName .tapLfun

/-- No two loggers have the same callback. -/
theorem nodup_registered {L : Type → Type} (x : Ctx) (sr : SRunner L) (mode : PrintOutput) :
    ((registered x sr mode).map Log.lfun).Nodup := by
  have hfile : ∀ fname var lfun, (fileLogger x mode fname var lfun).map Log.lfun = [] ∨
      (fileLogger x mode fname var lfun).map Log.lfun = [lfun] := by
    intro fname var lfun
    rw [fileLogger]
    cases (logFileName x.env fname var).map srunnerOpenFile with
    | none => exact .inl rfl
    | some f => exact .inr rfl
  rw [registered, List.map_append, List.map_append, List.map_append, List.map_singleton]
  show List.Nodup ([if mode ≠ .subunit then LFun.stdoutLfun else .subunitLfun] ++ _ ++ _ ++ _)
  rcases hfile sr.logFname .ckLogFileName .lfileLfun with h1 | h1 <;>
    rcases hfile sr.xmlFname .ckXmlLogFileName .xmlLfun with h2 | h2 <;>
    rcases hfile sr.tapFname .ckTapLogFileName .tapLfun with h3 | h3 <;>
    rw [h1, h2, h3] <;> split <;> decide

/-- The state in which the loggers are registered. -/
def logging {β ν : Type} (lgs : List Log) (s : St List β ν) : St List β ν :=
  { s.setList .loglst lgs with sr := { s.sr with loglst := true } }

theorem srunnerRegisterLfun_logging {β ν : Type} (x : Ctx) (f : OutFile) (close : Bool)
    (lfun : LFun) (mode : PrintOutput) (lgs : List Log) (s : St List β ν) :
    srunnerRegisterLfun x f close lfun mode (logging lgs s) =
      .ok () (logging (lgs ++ [loggerOn x mode lfun close f]) s) := by
  simp only [srunnerRegisterLfun, update_apply, logging, St.setList, Function.update_self,
    Function.update_idem]
  rfl

theorem registerFile_logging {β ν : Type} (x : Ctx) (fname : Option CStr) (var : EnvVar)
    (lfun : LFun) (mode : PrintOutput) (lgs : List Log) (s : St List β ν) :
    registerFile x fname var lfun mode (logging lgs s) =
      .ok () (logging (lgs ++ fileLogger x mode fname var lfun) s) := by
  rw [registerFile, fileLogger]
  cases (logFileName x.env fname var).map srunnerOpenFile with
  | none =>
      show EStateM.Result.ok () _ = .ok () (logging (lgs ++ []) s)
      rw [List.append_nil]
  | some f => exact srunnerRegisterLfun_logging x f _ lfun mode lgs s

/-- Logging starts with its first event, once all loggers are registered. -/
theorem srunnerInitLogging_apply {β ν : Type} (x : Ctx) (mode : PrintOutput) (s : St List β ν) :
    srunnerInitLogging x mode s =
      srunnerSendEvt x .null .initlogSr (logging (registered x s.sr mode) s) := by
  rw [srunnerInitLogging, update_bind, update_bind]
  refine (bind_of_ok _ (srunnerRegisterLfun_logging x _ _ _ mode [] s)).trans ?_
  rw [read_bind, bind_of_ok _ (registerFile_logging x _ _ _ mode _ s), read_bind,
    bind_of_ok _ (registerFile_logging x _ _ _ mode _ s), read_bind,
    bind_of_ok _ (registerFile_logging x _ _ _ mode _ s)]
  rfl

/-! ## the plan of a run -/

/-- The steps of a run. -/
inductive RunStep where
  | suiteStart (s : SuiteId)
  | tcase (tc : TCaseId)
  | suiteEnd (s : SuiteId)
deriving DecidableEq, Repr

section

variable {L : Type → Type} [Lists L] {ν : Type}

/-- The documented filter for suites: by their names and those of their test
cases. -/
def SuiteWanted (a : RunArgs) (heap : Heap L ν) (su : SuiteId) : Prop :=
  (a.sname = none ∨ a.sname = some (heap.suiteName su)) ∧
    ∀ n ∈ a.tcname, ∃ tc ∈ Lists.elems (heap.lists (.tclst su)), heap.tcName tc = n

instance (a : RunArgs) (heap : Heap L ν) (su : SuiteId) : Decidable (SuiteWanted a heap su) :=
  inferInstanceAs (Decidable (_ ∧ _))

/-- The steps for a suite. -/
def suitePlan (a : RunArgs) (heap : Heap L ν) (tags : TCaseId → Option CStr) (su : SuiteId) :
    List RunStep :=
  if SuiteWanted a heap su then
    [.suiteStart su] ++
      ((Lists.elems (heap.lists (.tclst su))).filter fun tc =>
        Wanted a (heap.suiteName su) (heap.tcName tc) (tags tc)).map .tcase ++
      [.suiteEnd su]
  else []

/-- The suites and test cases that are wanted, in order. -/
def plan (a : RunArgs) (heap : Heap L ν) (tags : TCaseId → Option CStr) : List RunStep :=
  (Lists.elems (heap.lists .slst)).flatMap (suitePlan a heap tags)

end

theorem SameCases.plan {L L' : Type → Type} [Lists L] [Lists L'] {H : Heap L NestedRun}
    {K : Heap L' NestedRun} (h : SameCases H K) (a : RunArgs) (tags : TCaseId → Option CStr) :
    plan a K tags = plan a H tags := by
  obtain ⟨hsuite, htc, hlists⟩ := h
  have hslst := hlists .slst (fun he => nomatch he) (fun _ he => nomatch he)
  have htclst := fun su => hlists (.tclst su) (fun he => nomatch he) (fun _ he => nomatch he)
  have hplan : suitePlan a K tags = suitePlan a H tags := by
    funext su
    have hw : SuiteWanted a K su ↔ SuiteWanted a H su := by
      simp only [SuiteWanted, htclst, hsuite, htc]
    simp only [suitePlan, hw, htclst, hsuite, htc]
  rw [LibCheck.plan, LibCheck.plan, hslst, hplan]

section

variable {x : Ctx} {I : St List SendMsg NestedRun → Prop}
  {J : ∀ {α : Type}, List κ → RunM List SendMsg NestedRun α → Prop} (hJ : Sequences I J)
  {H : Heap List NestedRun} (hI : ∀ s, I s → s.heap = H)
include hJ hI

/-- A loop over a list of the heap that is never left early. -/
theorem does_forList {r : LRef} {g : r.Elem NestedRun → List κ}
    {body : r.Elem NestedRun → RunM List SendMsg NestedRun (Option Unit)}
    (h : ∀ f ∈ H.lists r, J (g f) (body f))
    (hnone : ∀ f s b s', body f s = .ok b s' → b = none) :
    J ((H.lists r).flatMap g) (forList x r body) := by
  refine hJ.congr (fun s hs => ?_) (hJ.findSomeM h hnone)
  show (s.heap.lists r).findSomeM? body s = _
  rw [hI s hs]

end

section

variable {x : Ctx} {I : St List SendMsg NestedRun → Prop}
  {J : ∀ {α : Type}, List RunStep → RunM List SendMsg NestedRun α → Prop} (hJ : Sequences I J)
  {H : Heap List NestedRun} (hI : ∀ s, I s → s.heap = H) {a : RunArgs}
  {tags : TCaseId → Option CStr} (hH : Tagged a tags H)
  (hstart : ∀ su, J [.suiteStart su] (logSuiteStart x su))
  (hend : ∀ su, J [.suiteEnd su] (logSuiteEnd x su))
include hJ hI hH hstart hend

/-- A suite, step by step. -/
theorem does_iterateSuite (su : SuiteId)
    (hcase : ∀ tc, .tcase tc ∈ suitePlan a H tags su →
      J [.tcase tc] (srunnerRunTcase x (runNested x) tc)) :
    J (suitePlan a H tags su) (iterateSuite x (runNested x) a su) := by
  refine hJ.bind_of_eq (a := decide (SuiteWanted a H su)) (fun s hs => ?_) ?_
  · rw [← hI s hs]
    exact suiteSelected_apply x a.sname a.tcname su s
  by_cases hsu : SuiteWanted a H su
  · rw [suitePlan, if_pos hsu] at hcase
    rw [if_pos (decide_eq_true hsu), suitePlan, if_pos hsu]
    have hbody : ∀ tc ∈ H.lists (.tclst su), J
        (if Wanted a (H.suiteName su) (H.tcName tc) (tags tc) then [.tcase tc] else []) (do
          if ← tcaseSelected x a.tcname a.includeTags a.excludeTags tc then do
            srunnerRunTcase x (runNested x) tc
            pure (none : Option Unit)
          else pure none) := by
      intro tc htc
      refine hJ.bind_of_eq (fun s hs => hI s hs ▸ tcaseSelected_apply x a tc s) ?_
      by_cases hw : Wanted a (H.suiteName su) (H.tcName tc) (tags tc)
      · rw [if_pos hw, if_pos (decide_eq_true ((wanted_iff_selected hH su htc).mp hw).2)]
        have hmem : tc ∈ (H.lists (.tclst su)).filter fun tc =>
            Wanted a (H.suiteName su) (H.tcName tc) (tags tc) :=
          List.mem_filter.mpr ⟨htc, decide_eq_true hw⟩
        have hplan := hcase tc (List.mem_append_left _
          (List.mem_append_right _ (List.mem_map_of_mem hmem)))
        exact hJ.bind hplan fun _ => hJ.pure none
      · rw [if_neg hw, if_neg fun h => hw ((wanted_iff_selected hH su htc).mpr
          ⟨hsu, of_decide_eq_true h⟩)]
        exact hJ.pure _
    have hloop := does_forList (x := x) hJ hI hbody fun _ _ _ _ h => runSelected_none h
    rw [flatMap_ite_singleton (fun tc => Wanted a (H.suiteName su) (H.tcName tc) (tags tc))
      RunStep.tcase] at hloop
    have hall := hJ.bind (hstart su) fun _ => hJ.bind hloop fun _ => hend su
    rw [← List.append_assoc] at hall
    exact hall
  · rw [if_neg fun h => hsu (of_decide_eq_true h), suitePlan, if_neg hsu]
    exact hJ.pure ()

/-- The loop over the suites, step by step. -/
theorem does_suites
    (hcase : ∀ tc, .tcase tc ∈ plan a H tags →
      J [.tcase tc] (srunnerRunTcase x (runNested x) tc)) :
    J (plan a H tags) (forList x .slst fun su => do
      iterateSuite x (runNested x) a su
      pure (none : Option Unit)) := by
  refine does_forList (r := .slst) (g := suitePlan a H tags) hJ hI (fun su hsu => ?_) ?_
  · have hsuite := hJ.bind (does_iterateSuite hJ hI hH hstart hend su fun tc htc =>
      hcase tc (List.mem_flatMap.mpr ⟨su, hsu, htc⟩)) fun _ => hJ.pure (none : Option Unit)
    rw [List.append_nil] at hsuite
    exact hsuite
  · intro su s b s' hb
    obtain ⟨_, _, -, hb⟩ := bind_eq_ok.mp hb
    cases hb
    rfl

end

end LibCheck
