import LibCheck.Events
import LibCheck.Statics

/-!
# LibCheck.Tap

The counter of the TAP logger is a static variable of the process: a run
inside a run that logs TAP as well starts it anew and leaves its own count
behind.

* `keeps_numTestsRun_runNested` — a run that does not log TAP leaves the counter alone.
* `indifferent_tapCounted` — as long as no other run is made in the process of the
  runner, the counter is the number of the results that were delivered.
-/

namespace LibCheck

open Prog

/-! ## what leaves the counter alone -/

section

variable {ν : Type}

theorem keeps_hist_setupPipe :
    Keeps (fun s => (s.proc.hist, s.proc.numTestsRun)) (setupPipe : RunM List SendMsg ν Unit) :=
  Keeps.bind (Keeps.read _) fun _ => Keeps.ite (Keeps.update fun _ => rfl)
    (Keeps.bind (Keeps.read _) fun _ => Keeps.ite (Keeps.update fun _ => rfl) (Keeps.throw _))

theorem keeps_hist_teardownPipe :
    Keeps (fun s => (s.proc.hist, s.proc.numTestsRun)) (teardownPipe : RunM List SendMsg ν Unit) :=
  Keeps.bind (Keeps.read _) fun _ => Keeps.ite (Keeps.update fun _ => rfl)
    (Keeps.bind (Keeps.read _) fun _ => Keeps.ite (Keeps.update fun _ => rfl) (Keeps.throw _))

/-- The counter is `n`, and no logger counts. -/
def Uncounted (n : Nat) (s : St List SendMsg ν) : Prop :=
  s.proc.numTestsRun = n ∧ LFun.tapLfun ∉ (s.heap.lists .loglst).map Log.lfun

/-- A run without a TAP logger. -/
theorem suitesClosed_count (x : Ctx) (call : ν → RunM List SendMsg ν Unit)
    (hcall : ∀ c, Keeps (St.watch Prod.fst) (call c)) (n : Nat) :
    SuitesClosed x call fun {α} (y : RunM List SendMsg ν α) =>
      Maintains (Uncounted n) (fun _ _ => True) y := by
  have hinv : ∀ {α : Type} {y : RunM List SendMsg ν α}, Keeps (St.watch Prod.fst) y →
      Maintains (Uncounted n) (fun _ _ => True) y := fun hy =>
    hy.maintains (I := fun w : (Heap List ν × SRunner List × When) × Nat =>
      w.2 = n ∧ LFun.tapLfun ∉ (w.1.1.lists .loglst).map Log.lfun)
  exact
    { seqClosed_maintains fun _ _ _ _ => trivial with
      forList := fun r body hb s hs => Maintains.findSomeM (fun f _ => hb f) s hs
      fork := fun p _ => hinv (keeps_watch_forkChild p)
      kill := hinv keeps_watch_killPoint
      send := fun m => hinv (keeps_watch_sendMsg m)
      receive := fun w => hinv (keeps_watch_receiveTestResult w)
      assertion := fun _ => Maintains.update fun _ hs => hs
      fixture := fun _ _ => Maintains.update fun _ hs => hs
      body := fun _ _ => Maintains.update fun _ hs => hs
      setjmp := Maintains.update fun _ hs => hs
      alarm := fun _ => Maintains.update fun _ hs => hs
      call := fun c => hinv (hcall c)
      fstat := fun f => Maintains.update fun _ hs => hs
      addFailure := fun tr _ => Maintains.update fun _ hs => hs
      occasion := fun f => Maintains.update fun _ hs => hs
      iter := fun tc tname i => Maintains.update fun _ hs => hs
      event := by
        intro obj evt s hs
        cases hres : srunnerSendEvt x obj evt s with
        | error e s' => trivial
        | ok u s' =>
            obtain ⟨-, -, rfl⟩ := srunnerSendEvt_ok hres
            exact ⟨(numTestsRun_foldl_notify hs.2 ..).trans hs.1, hs.2⟩
      tagLst := fun a l => Maintains.update fun s hs => by
        have hne : LRef.loglst ≠ .tagLst a := fun he => nomatch he
        rw [Uncounted, St.lists_setList_of_ne hne]
        exact hs
      tcase := fun tc => Maintains.update fun _ hs => hs }

end

/-! ## runs inside a run -/

/-- The run logs TAP. -/
def NestedRun.logsTap (c : NestedRun) : Bool :=
  (logFileName c.env c.sr.tapFname .ckTapLogFileName).isSome

theorem tapLfun_notMem_registered {L : Type → Type} {x : Ctx} {sr : SRunner L} {mode : PrintOutput}
    (h : logFileName x.env sr.tapFname .ckTapLogFileName = none) :
    .tapLfun ∉ (registered x sr mode).map Log.lfun := by
  have hfile : ∀ fname var lfun, lfun ≠ .tapLfun →
      .tapLfun ∉ (fileLogger x mode fname var lfun).map Log.lfun := by
    intro fname var lfun hne hmem
    obtain ⟨lg, hlg, hl⟩ := List.mem_map.mp hmem
    obtain ⟨f, -, rfl⟩ := List.mem_map.mp hlg
    exact hne hl
  have hnone : fileLogger x mode sr.tapFname .ckTapLogFileName .tapLfun = [] := by
    rw [fileLogger, h]
    rfl
  rw [registered, hnone, List.append_nil, List.map_append, List.map_append, List.mem_append,
    List.mem_append, not_or, not_or]
  refine ⟨⟨?_, hfile _ _ _ (by decide)⟩, hfile _ _ _ (by decide)⟩
  show LFun.tapLfun ∉ [if mode ≠ .subunit then LFun.stdoutLfun else LFun.subunitLfun]
  split <;> decide

/-- A nested run that does not log TAP leaves the counter alone. -/
theorem keeps_numTestsRun_runNested {x : Ctx} {c : NestedRun} (hc : c.logsTap = false) :
    Keeps (fun s => s.proc.numTestsRun) (runNested x c : RunM List SendMsg NestedRun Unit) := by
  intro m s hs
  simp only [runNested]
  cases hres : srunnerRunTagged (x.nested c.env) Empty.elim c.args
      (c.start s.proc : St List SendMsg Empty) with
  | error e t => trivial
  | ok u t =>
      have hclosed := suitesClosed_count (x.nested c.env) Empty.elim
        (fun c => c.elim) s.proc.numTestsRun
      obtain ⟨s1, s2, s3, s4, s5, s6, s7, hsetup, hlog, hstart, hsuites, hlogend, hendlog, htear,
        rfl⟩ := srunnerRunTagged_ok hres
      have h1 : s1.proc.numTestsRun = s.proc.numTestsRun ∧ s1.memory = _ :=
        ⟨congrArg Prod.snd (keeps_hist_setupPipe.of_ok hsetup), keeps_setupPipe.of_ok hsetup⟩
      -- none of the loggers that are registered is the TAP logger
      have hsr : s1.sr = (runStart (x.nested c.env) (c.start s.proc)).sr :=
        congrArg (fun m => m.2.1) h1.2
      have htap : .tapLfun ∉ (registered (x.nested c.env) s1.sr c.args.printMode).map Log.lfun := by
        refine tapLfun_notMem_registered ?_
        rw [hsr]
        exact Option.not_isSome_iff_eq_none.mp (Bool.eq_false_iff.mp hc)
      rw [srunnerInitLogging_apply] at hlog
      have ho2 := (hclosed.event _ _).of_ok (s := logging _ s1)
        ⟨h1.1, by rw [logging, St.lists_setList_self]; exact htap⟩ hlog
      have ho3 := (hclosed.event _ _).of_ok ho2 hstart
      have ho4 := (hclosed.steps.srunnerIterateSuites _).of_ok ho3 hsuites
      have ho5 := (hclosed.event _ _).of_ok ho4 hlogend
      have hend := hclosed.bind (hclosed.event .null .endlogSr) fun _ _ =>
        hclosed.bind (hclosed.forLogs fun _ => hclosed.pure (none : Option Unit)) fun _ _ =>
          Maintains.update (f := fun s : St List SendMsg Empty =>
            { s with sr := { s.sr with loglst := false } }) fun _ hs => hs
      have ho6 := hend.of_ok ho5 hendlog
      have hnum7 : s7.proc.numTestsRun = s6.proc.numTestsRun :=
        congrArg Prod.snd (keeps_hist_teardownPipe.of_ok htear)
      exact (hnum7.trans ho6.1).trans hs

/-! ## what the TAP logger counts -/

/-- Between its first and its last event, the TAP logger has counted the results that it was
given. -/
structure TapCounted (x : Ctx) (lgs : List Log) (lg : Log) (hist : List (Nat × Obs))
    (ds : List TestResult) (s : St List SendMsg NestedRun) : Prop where
  loggers : s.heap.lists .loglst = lgs
  delivered : delivered lg x.lvl s.proc.hist = delivered lg x.lvl hist ++ ds
  count : s.proc.numTestsRun = ds.length
  numbers : tapNumbers lg x.lvl s.proc.hist = tapNumbers lg x.lvl hist ++
    (List.range' 1 ds.length).map fun n => (.endT, n)

theorem tapNumber?_of_isUser (lg : Log) (o : Obs) (h : o.isUser) : o.tapNumber? lg = none := by
  cases o <;> first | rfl | cases h

section

variable {x : Ctx} {lgs : List Log} {lg : Log} {hist : List (Nat × Obs)} {ds : List TestResult}
  {s s' : St List SendMsg NestedRun}

/-- An event between the first and the last one. -/
theorem TapCounted.sendEvt (h : TapCounted x lgs lg hist ds s) (htap : lg.lfun = .tapLfun)
    (hlg : lg ∈ lgs) (hnd : (lgs.map Log.lfun).Nodup) {obj : LogObj} {evt : ClEvent}
    (hevt : InnerEvent obj evt) (hrun : srunnerSendEvt x obj evt s = .ok () s') :
    ∃ ds', TapCounted x lgs lg hist ds' s' := by
  obtain ⟨hinit, hend, hobj⟩ := hevt
  obtain ⟨-, -, rfl⟩ := srunnerSendEvt_ok hrun
  obtain ⟨hnum, hshown⟩ := tapNumbers_foldl_notify htap hlg hnd x evt obj s.sr.stats
    s.sr.resultlst s.proc
  rw [h.loggers]
  by_cases htest : evt = .endT
  · obtain ⟨tr, rfl⟩ := hobj htest
    subst htest
    refine ⟨ds ++ [tr], h.loggers, ?_, ?_, ?_⟩
    · rw [← List.append_assoc, ← h.delivered]
      exact shown_foldl_notify (fun _ _ _ => by rw [Obs.result?, if_pos ⟨rfl, rfl⟩]; rfl)
        (fun c hc => if_neg fun h => hc h.1) hlg hnd _
    · rw [List.length_append]
      exact hnum.trans (congrArg (· + 1) h.count)
    · rw [List.length_append, List.length_singleton, List.range'_1_concat, List.map_append,
        ← List.append_assoc, ← h.numbers]
      refine hshown.trans ?_
      rw [if_pos (.inl rfl), tapCount, h.count, Nat.add_comm]
      rfl
  · refine ⟨ds, h.loggers, ?_, ?_, ?_⟩
    · rw [← h.delivered, ← List.append_nil (LibCheck.delivered lg x.lvl s.proc.hist)]
      exact shown_foldl_notify (fun _ _ _ => by rw [Obs.result?, if_neg fun h => htest h.2]; rfl)
        (fun c hc => if_neg fun h => hc h.1) hlg hnd _
    · refine Eq.trans ?_ h.count
      refine hnum.trans ?_
      cases evt <;> first | rfl | exact absurd rfl hinit | exact absurd rfl htest
    · rw [← h.numbers]
      refine hshown.trans ?_
      rw [if_neg (not_or.mpr ⟨htest, hend⟩), List.append_nil]

/-- All else leaves the count alone. -/
theorem indifferent_tapCounted (htap : lg.lfun = .tapLfun) (hlg : lg ∈ lgs)
    (hnd : (lgs.map Log.lfun).Nodup) :
    Indifferent x Prod.fst fun s => ∃ ds, TapCounted x lgs lg hist ds s where
  untouched := by
    rintro s s' ⟨ds, h⟩ hun
    refine ⟨ds, by rw [hun.heap]; exact h.loggers, ?_, hun.statics.trans h.count, ?_⟩
    · rw [← h.delivered, LibCheck.delivered, hun.seen _ (result?_of_isUser lg)]
      rfl
    · rw [← h.numbers, tapNumbers, hun.seen _ (tapNumber?_of_isUser lg)]
      rfl
  addFailure := by
    rintro tr s ⟨ds, h⟩
    exact ⟨ds, h.loggers, h.delivered, h.count, h.numbers⟩
  occasion := by
    rintro f s ⟨ds, h⟩
    exact ⟨ds, h.loggers, h.delivered, h.count, h.numbers⟩
  observe := by
    rintro o s ho ⟨ds, h⟩
    have hresult : o.result? lg = none := by
      cases o with
      | log c => exact absurd rfl (ho c)
      | _ => rfl
    have hnumber : o.tapNumber? lg = none := by
      cases o with
      | log c => exact absurd rfl (ho c)
      | _ => rfl
    refine ⟨ds, h.loggers, ?_, h.count, ?_⟩
    · rw [← h.delivered]
      show LibCheck.delivered lg x.lvl (s.proc.hist ++ [(x.lvl, o)]) = _
      rw [LibCheck.delivered, shown_append, hresult]
      exact List.append_nil _
    · rw [← h.numbers]
      show tapNumbers lg x.lvl (s.proc.hist ++ [(x.lvl, o)]) = _
      rw [tapNumbers, shown_append, hnumber]
      exact List.append_nil _
  tagLst := by
    rintro a l s ⟨ds, h⟩
    have hne : LRef.loglst ≠ .tagLst a := by rintro ⟨⟩
    exact ⟨ds, (St.lists_setList_of_ne hne _ _).trans h.loggers, h.delivered, h.count, h.numbers⟩
  event := by
    rintro obj evt hevt s ⟨ds, h⟩
    cases hres : srunnerSendEvt x obj evt s with
    | error e s' => trivial
    | ok u s' => exact h.sendEvt htap hlg hnd hevt hres

end

end LibCheck
