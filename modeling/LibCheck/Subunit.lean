import LibCheck.Delivery

/-!
# LibCheck.Subunit

The names under which the subunit logger starts and ends the tests.

The name of a start is printed into a buffer of `log_test_start`, from the
registration of the test; the name of an end is printed by `subunit_lfun`, from
the result.

* `subunitPacket` — the packets of `subunit_lfun`.
* `Started`, `planStarted` — the tests of a plan that are started.
* `subunit_names_iff` — every test is started and ended under its own name if
  and only if every name fits the buffer and no result is that of a setup.
-/

namespace LibCheck

open Prog

/-! ## packets -/

/-- A call of the subunit library. -/
inductive SubunitPacket where
  | testStart (name : CStr)
  | testPass (name : CStr)
  | testFail (name details : CStr)
  | testError (name details : CStr)
deriving DecidableEq, Repr

/-- `ck_strdup_printf("%s:%s", ..)`. -/
def joinNames (tcname tname : List UInt8) : CStr := .ofBuf (tcname ++ text ":" ++ tname)

/-- The packets of `subunit_lfun`. -/
def subunitPacket (c : LogCall) : Option SubunitPacket :=
  match c.evt, c.obj with
  | .startT, .testName buffer => some (.testStart buffer)
  | .endT, .result tr =>
      let name := joinNames (fmtStr tr.tcname) (fmtStr tr.tname)
      let msg := CStr.ofBuf (trShortStr tr)
      match tr.rtype with
      | .pass => some (.testPass name)
      | .failure => some (.testFail name msg)
      | .error => some (.testError name msg)
      | .invalid => none
  | _, _ => none

/-- What is looked at: an iteration of a test begins, and is started and ended under
a name. -/
inductive NameEvent where
  | iter (tc : TCaseId) (tname : CStr)
  | start (name : CStr)
  | stop (name : CStr)
deriving DecidableEq, Repr

/-- The name in a packet. -/
def SubunitPacket.nameEvent : SubunitPacket → NameEvent
  | .testStart name => .start name
  | .testPass name | .testFail name _ | .testError name _ => .stop name

/-- The name in an observation. -/
def Obs.nameEvent? (lg : Log) : Obs → Option NameEvent
  | .iter tc tname _ => some (.iter tc tname)
  | .log c => if c.log = lg then (subunitPacket c).map SubunitPacket.nameEvent else none
  | _ => none

/-- The names of a subunit logger, in the run at nesting level `lvl`. -/
def subunitNames (lg : Log) (lvl : Nat) (hist : List (Nat × Obs)) : List NameEvent :=
  shown (Obs.nameEvent? lg) lvl hist

/-! ## the tests that are started -/

/-- A test that is started: whether a failure is waiting then, the occasion, its test
case and the test. -/
structure Started where
  waiting : Bool
  now : When
  tc : TCaseId
  tfun : TF NestedRun

/-- The iterations of a test case, after the test with the given number. -/
def startedIn (tc : TCaseId) : Bool → When → List (TF NestedRun × Int) → List Started
  | _, _, [] => []
  | p, now, t :: ts =>
      ⟨p, { now with test := now.test + 1 }, tc, t.1⟩ ::
        startedIn tc false { now with test := now.test + 1 } ts

section

variable {L : Type → Type} [Lists L] (heap : Heap L NestedRun)

/-- The tests of a test case that are started. -/
def caseStarted (t : Nat × Bool × TCaseId) : List Started :=
  if abandoned heap t.1 t.2.1 t.2.2 then []
  else startedIn t.2.2 ((Lists.elems (heap.lists (.fixtures .unchSflst t.2.2))).isEmpty && t.2.1)
    ⟨t.1, 0⟩ (iterations heap t.2.2)

/-- The tests of a plan that are started. -/
def planStarted (c : Nat × Bool) (ks : List RunStep) : List Started :=
  (foreseen heap c ks).flatMap (caseStarted heap)

/-- Without forking, a checked setup of the test reports a failure: its own, or one that
is waiting. -/
def Started.setupReports (mode : ForkStatus) (t : Started) : Bool :=
  mode = .nofork && ((!(Lists.elems (heap.lists (.fixtures .chSflst t.tc))).isEmpty && t.waiting) ||
    (Lists.elems (heap.lists (.fixtures .chSflst t.tc))).any fun f => fails (f.sfun.acts t.now))

/-- The name that the result of the test carries. -/
def Started.resultName (mode : ForkStatus) (t : Started) : CStr :=
  if t.setupReports heap mode then .lit "checked_setup" else t.tfun.ttest.name

/-- The test case name, a colon and the name of the test function. -/
def Started.fullName (t : Started) : CStr :=
  joinNames (heap.tcName t.tc).bytes t.tfun.ttest.name.bytes

/-- What is seen of a test. -/
def Started.names (mode : ForkStatus) (t : Started) : List NameEvent :=
  [.iter t.tc t.tfun.ttest.name, .start (testStartName (heap.tcName t.tc) t.tfun.ttest.name),
    .stop (joinNames (heap.tcName t.tc).bytes (t.resultName heap mode).bytes)]

/-- Every test is started and ended under its own name. -/
def OwnNames (ns : List NameEvent) : Prop :=
  ∃ ts : List Started, ns = ts.flatMap fun t =>
    [.iter t.tc t.tfun.ttest.name, .start (t.fullName heap), .stop (t.fullName heap)]

end

theorem startedIn_append (tc : TCaseId) (p : Bool) (now : When)
    (ts ts' : List (TF NestedRun × Int)) :
    startedIn tc p now (ts ++ ts') = startedIn tc p now ts ++
      startedIn tc (ts.isEmpty && p) { now with test := now.test + ts.length } ts' := by
  induction ts generalizing p now with
  | nil => simp [startedIn]
  | cons t ts ih =>
      rw [List.cons_append, startedIn, startedIn, ih, List.cons_append, List.length_cons,
        Bool.and_false, List.isEmpty_cons, Bool.false_and, Nat.add_right_comm, Nat.add_assoc]

/-! ## names -/

theorem bytes_joinNames (tcname tname : CStr) :
    (joinNames tcname.bytes tname.bytes).bytes = tcname.bytes ++ text ":" ++ tname.bytes := by
  have hnul : ∀ b ∈ tcname.bytes ++ text ":" ++ tname.bytes, b ≠ 0 := by
    rintro b hb rfl
    rcases List.mem_append.mp hb with hb | hb
    · rcases List.mem_append.mp hb with hb | hb
      · exact tcname.nul_free hb
      · exact (CStr.lit ":").nul_free hb
    · exact tname.nul_free hb
  show List.takeWhile _ _ = _
  refine List.takeWhile_eq_self_iff.mpr fun b hb => ?_
  simpa using hnul b hb

/-- The buffer holds the whole name if and only if the name is short enough. -/
theorem testStartName_eq_iff (tcname tname : CStr) :
    testStartName tcname tname = joinNames tcname.bytes tname.bytes ↔
      tcname.strlen + 1 + tname.strlen ≤ 98 := by
  have hbuf : (testStartName tcname tname).bytes =
      (joinNames tcname.bytes tname.bytes).bytes.take 98 := by
    rw [bytes_joinNames]
    show List.takeWhile _ (List.take 98 _) = _
    refine List.takeWhile_eq_self_iff.mpr fun b hb => ?_
    rw [← bytes_joinNames] at hb
    have hne : b ≠ 0 := fun h => (joinNames tcname.bytes tname.bytes).nul_free
      (h ▸ List.mem_of_mem_take hb)
    simpa using hne
  have hlen : (joinNames tcname.bytes tname.bytes).bytes.length =
      tcname.strlen + 1 + tname.strlen := by
    rw [bytes_joinNames, List.length_append, List.length_append]
    rfl
  constructor
  · intro h
    have hl := congrArg (fun n => n.bytes.length) h
    simp only [hbuf, List.length_take, hlen] at hl
    omega
  · intro h
    refine CStr.ext_bytes ?_
    rw [hbuf, List.take_of_length_le (by omega)]

theorem joinNames_inj {tcname t t' : CStr} :
    joinNames tcname.bytes t.bytes = joinNames tcname.bytes t'.bytes ↔ t = t' := by
  constructor
  · intro h
    have hb := congrArg CStr.bytes h
    rw [bytes_joinNames, bytes_joinNames] at hb
    exact CStr.ext_bytes (List.append_cancel_left hb)
  · rintro rfl
    rfl

section

variable {L : Type → Type} [Lists L] {heap : Heap L NestedRun} {mode : ForkStatus}

theorem Started.resultName_eq_iff {t : Started} :
    t.resultName heap mode = t.tfun.ttest.name ↔
      (t.setupReports heap mode = true → t.tfun.ttest.name = .lit "checked_setup") := by
  rw [Started.resultName]
  by_cases h : t.setupReports heap mode = true
  · rw [if_pos h]
    exact ⟨fun he _ => he.symm, fun he => (he h).symm⟩
  · rw [if_neg h]
    exact ⟨fun _ h' => absurd h' h, fun _ => rfl⟩

/-- The tests that are started have their own names if and only if each of them is
started and ended under its own name. -/
theorem ownNames_iff (ts : List Started) :
    OwnNames heap (ts.flatMap (Started.names heap mode)) ↔
      ∀ t ∈ ts, (heap.tcName t.tc).strlen + 1 + t.tfun.ttest.name.strlen ≤ 98 ∧
        (t.setupReports heap mode = true → t.tfun.ttest.name = .lit "checked_setup") := by
  constructor
  · rintro ⟨ts', h⟩
    induction ts generalizing ts' with
    | nil => exact fun _ ht => absurd ht List.not_mem_nil
    | cons t ts ih =>
        cases ts' with
        | nil => cases h
        | cons t' ts' =>
            rw [List.flatMap_cons, List.flatMap_cons] at h
            obtain ⟨h3, hrest⟩ := List.append_inj h rfl
            simp only [Started.names, List.cons.injEq, NameEvent.iter.injEq, NameEvent.start.injEq,
              NameEvent.stop.injEq, and_true] at h3
            obtain ⟨⟨htc, htname⟩, hstart, hstop⟩ := h3
            have hfull : t'.fullName heap = t.fullName heap := by
              rw [Started.fullName, Started.fullName, htc, htname]
            rw [hfull] at hstart hstop
            exact List.forall_mem_cons.mpr ⟨⟨(testStartName_eq_iff _ _).mp hstart,
              Started.resultName_eq_iff.mp (joinNames_inj.mp hstop)⟩, ih ts' hrest⟩
  · intro h
    refine ⟨ts, List.flatMap_congr fun t ht => ?_⟩
    obtain ⟨hfits, hname⟩ := h t ht
    rw [Started.names, (testStartName_eq_iff _ _).mpr hfits, Started.resultName_eq_iff.mpr hname]
    rfl

end

/-! ## results -/

section

variable {x : Ctx} {s s' : St List SendMsg NestedRun}

/-- The result of the same process has the names it is given. -/
theorem returns_receiveNofork_names {tcname tname : CStr} {iter : Int} {duration : Int32}
    {tr : TestResult}
    (h : Returns (receiveResultInfoNofork x tcname tname iter duration :
      RunM List SendMsg NestedRun TestResult) tr) :
    tr.tcname = some tcname ∧ tr.tname = some tname := by
  obtain ⟨tr', -, h⟩ := returns_bind h
  rw [returns_pure h, setNoforkInfo]
  split <;> exact ⟨rfl, rfl⟩

/-- The result of a setup has the name of the setup. -/
theorem returns_srunnerRunSetup_names {fl : FixtureList} {tc : TCaseId} {tname sname : CStr}
    {tr : TestResult}
    (h : Returns (srunnerRunSetup x (runNested x) fl tc .nofork tname sname :
      RunM List SendMsg NestedRun (Option TestResult)) (some tr)) :
    tr.tcname = some tname ∧ tr.tname = some sname := by
  obtain ⟨_, -, h⟩ := returns_bind h
  obtain ⟨f, h⟩ := returns_forList h
  rw [runSetup, if_pos rfl] at h
  obtain ⟨_, -, h⟩ := returns_bind h
  obtain ⟨_, -, h⟩ := returns_bind h
  obtain ⟨tr', htr, h⟩ := returns_bind h
  split at h
  · cases returns_pure h
    exact returns_receiveNofork_names htr
  · cases returns_pure h

/-- The names in the result of a test. -/
theorem tcaseRunTfun_names {tc : TCaseId} {tfun : TF NestedRun} {i : Int} {tr : TestResult}
    {mode : ForkStatus} (hmode : forkStatusOf x.env s.sr.fstat = mode)
    (h1 : s.proc.sendFile1.isSome)
    (h : tcaseRunTfun x (runNested x) tc tfun i s = .ok tr s') :
    tr.tcname = some (s.heap.tcName tc) ∧
      tr.tname = some (Started.resultName s.heap mode ⟨s.proc.pending, s.now, tc, tfun⟩) := by
  rw [tcaseRunTfun, srunnerForkStatus, read_bind, hmode] at h
  cases mode with
  | getenv => cases h
  | fork =>
      obtain ⟨status, s1, hfork, h⟩ := bind_eq_ok.mp h
      rw [read_bind, update_bind, read_bind] at h
      obtain ⟨tr', s2, -, h⟩ := bind_eq_ok.mp h
      cases h
      have hsil : Silent x s s1 :=
        silent_of_closed (fun _ hP => hP.fork _ (hP.testProcess tc tfun i)) hfork
      obtain ⟨htc, ht, -⟩ := setForkInfo_names x.cfg s'.proc.alarmReceived
        { tr' with
          tcname := some (s1.heap.tcName tc), tname := some tfun.ttest.name, iter := i }
        status tfun.signal tfun.allowedExitValue
      refine ⟨htc.trans ?_, ht⟩
      rw [hsil.heap]
  | nofork =>
      obtain ⟨r, s1, hset, h⟩ := bind_eq_ok.mp h
      have hsil : Silent x s s1 := silent_of_closed (fun _ hP => hP.tcaseRunCheckedSetup tc) hset
      rw [tcaseRunCheckedSetup, srunnerForkStatus, read_bind, read_bind, hmode] at hset
      obtain ⟨hr, -⟩ := srunnerRunSetup_pending h1 hset
      have hreports : Started.setupReports s.heap .nofork ⟨s.proc.pending, s.now, tc, tfun⟩ =
          r.isSome := hr.symm
      cases r with
      | some tr' =>
          cases h
          rw [Option.isSome_some] at hreports
          rw [Started.resultName, if_pos hreports]
          exact returns_srunnerRunSetup_names ⟨_, _, hset⟩
      | none =>
          rw [Option.isSome_none] at hreports
          rw [Started.resultName, if_neg (Bool.eq_false_iff.mp hreports)]
          obtain ⟨b, s2, hcall, h⟩ := bind_eq_ok.mp h
          obtain ⟨_, s3, htear, h⟩ := bind_eq_ok.mp h
          rw [read_bind, read_bind] at h
          have hsil2 : Silent x s1 s2 :=
            silent_of_closed (fun _ hP => hP.protect (hP.callTest tfun i)) hcall
          have hsil3 : Silent x s2 s3 :=
            silent_of_closed (fun _ hP => hP.srunnerRunTeardown _ _ _) htear
          have hnames := returns_receiveNofork_names ⟨_, _, h⟩
          rw [((hsil.trans hsil2).trans hsil3).heap] at hnames
          exact hnames

end

/-! ## test cases -/

theorem nameEvent?_of_isUser (lg : Log) (o : Obs) (h : o.isUser) : o.nameEvent? lg = none := by
  cases o <;> first | rfl | cases h

section

variable {x : Ctx} {s s' : St List SendMsg NestedRun} {lg : Log}

/-- A packet of the logger. -/
theorem subunitNames_sendEvt {evt : ClEvent} {obj : LogObj} {e : NameEvent}
    (hnd : ((s.heap.lists .loglst).map Log.lfun).Nodup) (hlg : lg ∈ s.heap.lists .loglst)
    (he : ∀ c : LogCall, c.evt = evt → c.obj = obj →
      (subunitPacket c).map SubunitPacket.nameEvent = some e)
    (h : srunnerSendEvt x obj evt s = .ok () s') :
    subunitNames lg x.lvl s'.proc.hist = subunitNames lg x.lvl s.proc.hist ++ [e] := by
  obtain ⟨-, -, rfl⟩ := srunnerSendEvt_ok h
  refine shown_foldl_notify (fun _ _ _ => ?_) (fun c hc => if_neg hc) hlg hnd _
  rw [Obs.nameEvent?, if_pos rfl, he _ rfl rfl]
  rfl

/-- The unchecked setups of a test case show nothing but user code. -/
theorem srunnerRunUncheckedSetup_seen {γ : Type} {tc : TCaseId} {b : Bool} (g : Obs → Option γ)
    (hg : ∀ o, o.isUser → g o = none)
    (h : srunnerRunUncheckedSetup x (runNested x) tc s = .ok b s') :
    shown g x.lvl s'.proc.hist = shown g x.lvl s.proc.hist := by
  rw [srunnerRunUncheckedSetup, setForkStatus, update_bind, read_bind] at h
  obtain ⟨r, s1, hset, h⟩ := bind_eq_ok.mp h
  rw [srunnerForkStatus, read_bind, setForkStatus, update_bind] at h
  have hsil : Silent x (s.onProc fun p => { p with fstat := .nofork }) s1 :=
    silent_of_closed (fun _ hP => hP.srunnerRunSetup _ _ _ _ _) hset
  have hseen : shown g x.lvl s1.proc.hist = shown g x.lvl s.proc.hist := hsil.seen g hg
  cases r with
  | none =>
      cases h
      exact hseen
  | some tr =>
      dsimp only at h
      split at h
      · obtain ⟨_, s3, hadd, h⟩ := bind_eq_ok.mp h
        cases hadd
        cases h
        exact hseen
      · cases h
        exact hseen

variable {H : Heap List NestedRun} {mode : ForkStatus} {tc : TCaseId}

/-- The names in the iterations of a test case. -/
def IterationsNamed (x : Ctx) (lg : Log) (H : Heap List NestedRun) (mode : ForkStatus)
    (tc : TCaseId)
    (s : St List SendMsg NestedRun) (ts : List (TF NestedRun × Int))
    (s' : St List SendMsg NestedRun) : Prop :=
  s'.now = { s.now with test := s.now.test + ts.length } ∧
    s'.proc.pending = (ts.isEmpty && s.proc.pending) ∧
    subunitNames lg x.lvl s'.proc.hist = subunitNames lg x.lvl s.proc.hist ++
      (startedIn tc s.proc.pending s.now ts).flatMap (Started.names H mode)

variable (lg mode) in
theorem composes_iterationsNamed : Composes (IterationsNamed x lg H mode tc) where
  refl s := ⟨rfl, by simp, (List.append_nil _).symm⟩
  trans := by
    rintro s s' s'' ts ts' ⟨hn, hp, hs⟩ ⟨hn', hp', hs'⟩
    refine ⟨?_, ?_, ?_⟩
    · rw [hn', hn, List.length_append, Nat.add_assoc]
    · rw [hp', hp]
      cases ts <;> cases ts' <;> simp
    · rw [hs', hs, startedIn_append, List.flatMap_append, hn, hp, List.append_assoc]

variable (hlg : lg ∈ H.lists .loglst) (hnd : ((H.lists .loglst).map Log.lfun).Nodup)
include hlg hnd

theorem does_runIteration_names (tfun : TF NestedRun) (i : Int) :
    Does (Midrun x H mode) (IterationsNamed x lg H mode tc) [(tfun, i)]
      (runIteration x (runNested x) tc tfun i) := by
  intro s u s' hm h
  obtain ⟨hm', hnow', hp', -⟩ :=
    does_runIteration rfl hnd tfun i s u s' hm h
  refine ⟨hm', hnow', hp', ?_⟩
  rw [runIteration, update_bind, update_bind] at h
  obtain ⟨_, s1, hstart, h⟩ := bind_eq_ok.mp h
  obtain ⟨tr, s2, htest, h⟩ := bind_eq_ok.mp h
  obtain ⟨_, s3, hadd, hend⟩ := bind_eq_ok.mp h
  rw [logTestStart, read_bind] at hstart
  have hm0 : Midrun x H mode (St.onProc (Proc.observe x.lvl (.iter tc tfun.ttest.name i))
      { s with now := { s.now with test := s.now.test + 1 } }) := ⟨hm.heap, hm.file1, hm.mode⟩
  obtain ⟨hm1, hnow1, hp1⟩ := srunnerSendEvt_frame hm0 hstart
  have hsil2 : Silent x s1 s2 := silent_of_closed (fun _ hP => hP.tcaseRunTfun tc tfun i) htest
  have hm2 := hm1.of_silent hsil2
  -- the three names, one after the other
  have hiter : subunitNames lg x.lvl (s.proc.hist ++ [(x.lvl, .iter tc tfun.ttest.name i)]) =
      subunitNames lg x.lvl s.proc.hist ++ [.iter tc tfun.ttest.name] := shown_append ..
  have hname1 := subunitNames_sendEvt
    (e := .start (testStartName (H.tcName tc) tfun.ttest.name)) (hm0.heap ▸ hnd) (hm0.heap ▸ hlg)
    (fun c hevt hobj => by
      rw [subunitPacket, hevt, hobj, hm0.heap]
      rfl) hstart
  have hname2 : subunitNames lg x.lvl s2.proc.hist = subunitNames lg x.lvl s1.proc.hist :=
    hsil2.seen _ (nameEvent?_of_isUser lg)
  obtain ⟨htcname, htname⟩ := tcaseRunTfun_names hm1.mode hm1.file1 htest
  have hclass : tr.Classified := returns_tcaseRunTfun ⟨_, _, htest⟩
  cases hadd
  have hname3 := subunitNames_sendEvt
    (e := .stop (joinNames (H.tcName tc).bytes
      (Started.resultName H mode ⟨s.proc.pending, s1.now, tc, tfun⟩).bytes))
    (hm2.heap ▸ hnd) (hm2.heap ▸ hlg)
    (fun c hevt hobj => by
      rw [hm1.heap] at htcname htname
      rw [show s.proc.pending = s1.proc.pending from hp1.symm]
      rw [subunitPacket, hevt, hobj]
      rcases hclass.1 with hr | hr | hr
      all_goals
        simp only [hr, htcname, htname]
        rfl) hend
  rw [hname3]
  show subunitNames lg x.lvl s2.proc.hist ++ _ = _
  rw [hname2, hname1]
  show subunitNames lg x.lvl (s.proc.hist ++ [(x.lvl, .iter tc tfun.ttest.name i)]) ++ _ ++ _ = _
  rw [hiter, hnow1]
  simp only [List.append_assoc]
  rfl

/-- The names in the steps of a plan. -/
structure PlanNamed (x : Ctx) (lg : Log) (H : Heap List NestedRun) (mode : ForkStatus)
    (s : St List SendMsg NestedRun) (ks : List RunStep) (s' : St List SendMsg NestedRun) :
    Prop where
  carried : (s'.now.tcrun, s'.proc.pending) = ks.foldl (carry H) (s.now.tcrun, s.proc.pending)
  names : subunitNames lg x.lvl s'.proc.hist = subunitNames lg x.lvl s.proc.hist ++
    (planStarted H (s.now.tcrun, s.proc.pending) ks).flatMap (Started.names H mode)

omit hlg hnd in
variable (lg mode) in
theorem composes_planNamed : Composes (PlanNamed x lg H mode) where
  refl s := ⟨rfl, (List.append_nil _).symm⟩
  trans := by
    rintro s s' s'' ks ks' ⟨hc, hs⟩ ⟨hc', hs'⟩
    refine ⟨by rw [hc', hc, List.foldl_append], ?_⟩
    rw [hs', hs, hc, planStarted, planStarted, planStarted, foreseen_append, List.flatMap_append,
      List.flatMap_append, List.append_assoc]

theorem does_srunnerRunTcase_names :
    Does (Midrun x H mode) (PlanNamed x lg H mode) [.tcase tc]
      (srunnerRunTcase x (runNested x) tc) := by
  intro s u s' hm h
  obtain ⟨hm', hran⟩ := does_srunnerRunTcase rfl hnd s u s' hm h
  refine ⟨hm', hran.carried, ?_⟩
  rw [srunnerRunTcase, update_bind, update_bind] at h
  have hm0 : Midrun x H mode (St.onProc (Proc.observe x.lvl (.tcase tc))
      { s with now := ⟨s.now.tcrun + 1, 0⟩ }) := ⟨hm.heap, hm.file1, hm.mode⟩
  have hnames0 : subunitNames lg x.lvl (s.proc.hist ++ [(x.lvl, .tcase tc)]) =
      subunitNames lg x.lvl s.proc.hist := (shown_append ..).trans (List.append_nil _)
  obtain ⟨b, s1, hset, h⟩ := bind_eq_ok.mp h
  obtain ⟨⟨hm1, hnow1⟩, hb, hp1, -⟩ :=
    srunnerRunUncheckedSetup_ok [] hm0 rfl hset
  have hnames1 : subunitNames lg x.lvl s1.proc.hist =
      subunitNames lg x.lvl (s.proc.hist ++ [(x.lvl, .tcase tc)]) :=
    srunnerRunUncheckedSetup_seen _ (nameEvent?_of_isUser lg) hset
  have hcase : planStarted H (s.now.tcrun, s.proc.pending) [.tcase tc] =
      caseStarted H (s.now.tcrun + 1, s.proc.pending, tc) := List.append_nil _
  rw [hcase, caseStarted]
  have hp0 : (St.onProc (Proc.observe x.lvl (.tcase tc))
      { s with now := ⟨s.now.tcrun + 1, 0⟩ }).proc.pending = s.proc.pending :=
    Proc.pending_of_getPipe rfl
  rw [hp0] at hb hp1
  cases hab : abandoned H (s.now.tcrun + 1) s.proc.pending tc with
  | true =>
      rw [hab] at hb
      subst hb
      cases h
      rw [if_pos rfl, hnames1, hnames0]
      exact (List.append_nil _).symm
  | false =>
      rw [hab] at hb
      subst hb
      obtain ⟨_, s2, hiter, h⟩ := bind_eq_ok.mp h
      rw [update_bind] at h
      obtain ⟨-, -, -, hnames2⟩ := does_iterations
        (Does.sequences (composes_iterationsNamed lg mode))
        (fun _ hm => hm.heap) (fun tfun _ i => does_runIteration_names hlg hnd tfun i) s1 _ s2 hm1
        hiter
      have hsil : Silent x { s2 with now := { s2.now with test := 0 } } s' :=
        silent_of_closed (fun _ hP => hP.bind (hP.read _) fun _ _ => hP.srunnerRunTeardown _ _ _) h
      have hnames3 : subunitNames lg x.lvl s'.proc.hist = subunitNames lg x.lvl s2.proc.hist :=
        hsil.seen _ (nameEvent?_of_isUser lg)
      rw [if_neg (by decide), hnames3, hnames2, hnames1, hnames0, hp1, hnow1]
      rfl

omit hlg hnd in
/-- An event around the test cases. -/
theorem does_suiteEvent_names {evt : ClEvent} {y : RunM List SendMsg NestedRun Unit}
    {obj : St List SendMsg NestedRun → LogObj} (hy : ∀ s, y s = srunnerSendEvt x (obj s) evt s)
    (he : evt = .startS ∨ evt = .endS) {step : RunStep} (hstep : ∀ c, carry H c step = c)
    (hforeseen : ∀ c, foreseen H c [step] = []) :
    Does (Midrun x H mode) (PlanNamed x lg H mode) [step] y := by
  intro s u s' hm h
  rw [hy] at h
  obtain ⟨hm', hnow, hp⟩ := srunnerSendEvt_frame hm h
  refine ⟨hm', ?_, ?_⟩
  · rw [hnow, hp, List.foldl_cons, List.foldl_nil, hstep]
  · have hnone : ∀ c : LogCall, c.evt = evt → Obs.nameEvent? lg (.log c) = none := by
      intro c hc
      have hpacket : subunitPacket c = none := by
        rw [subunitPacket, hc]
        rcases he with rfl | rfl <;> rfl
      rw [Obs.nameEvent?, hpacket]
      exact ite_self _
    rw [planStarted, hforeseen]
    exact (srunnerSendEvt_unseen hnone h).trans (List.append_nil _).symm

end

/-! ## runs -/

namespace SameCases

variable {L L' : Type → Type} [Lists L] [Lists L'] {H : Heap L NestedRun} {K : Heap L' NestedRun}
  (h : SameCases H K)
include h

theorem caseStarted (t : Nat × Bool × TCaseId) : caseStarted K t = caseStarted H t := by
  rw [LibCheck.caseStarted, LibCheck.caseStarted, h.abandoned, h.iterations, h.fixtures]

theorem planStarted (c : Nat × Bool) (ks : List RunStep) :
    planStarted K c ks = planStarted H c ks := by
  rw [LibCheck.planStarted, LibCheck.planStarted, h.foreseen]
  exact List.flatMap_congr fun t _ => h.caseStarted t

theorem startedNames {mode : ForkStatus} (t : Started) : t.names K mode = t.names H mode := by
  rw [Started.names, Started.names, Started.resultName, Started.resultName, Started.setupReports,
    Started.setupReports, h.fixtures, h.2.1]

end SameCases

/-- The names in a run of the abstract machine. -/
theorem subunitNames_srunnerRunTagged {x : Ctx} {s s' : St List SendMsg NestedRun} {lg : Log}
    {tags : TCaseId → Option CStr} {a : RunArgs} (h2 : s.proc.sendFile2 = none)
    (htags : ∀ tc, s.heap.lists (.tags tc) = tagStringToList (tags tc))
    (hlg : lg ∈ registered x s.sr a.printMode)
    (h : srunnerRunTagged x (runNested x) a s = .ok () s') :
    subunitNames lg x.lvl s'.proc.hist = subunitNames lg x.lvl s.proc.hist ++
      (planStarted s.heap (s.now.tcrun, false) (plan (effectiveArgs x.env a) s.heap tags)).flatMap
        (Started.names s.heap (forkStatusOf x.env s.sr.fstat)) := by
  obtain ⟨s1, s2, hsuites, hent, hleft⟩ := srunnerRunTagged_suites h2 h
  have hsame : SameCases s.heap (loadTags (effectiveArgs x.env a) s1).heap := hent.cases.loadTags _
  have hquiet : ∀ c : LogCall, c.evt ∈ [ClEvent.initlogSr, .startSr, .endSr, .endlogSr] →
      Obs.nameEvent? lg (.log c) = none := by
    intro c hc
    have hnone : subunitPacket c = none := by
      rw [subunitPacket]
      simp only [List.mem_cons, List.not_mem_nil, or_false] at hc
      rcases hc with hc | hc | hc | hc <;> rw [hc]
    rw [Obs.nameEvent?, hnone]
    exact ite_self _
  rw [srunnerIterateSuites_apply] at hsuites
  cases hres : forList x .slst (fun su => do
      iterateSuite x (runNested x) (effectiveArgs x.env a) su
      pure (none : Option Unit)) (loadTags (effectiveArgs x.env a) s1) with
  | error e t =>
      rw [hres] at hsuites
      cases hsuites
  | ok b t =>
      rw [hres] at hsuites
      cases hsuites
      have hne : ∀ g, LRef.loglst ≠ .tagLst g := fun _ he => nomatch he
      have hlgs : (loadTags (effectiveArgs x.env a) s1).heap.lists .loglst =
        registered x s.sr a.printMode := (lists_loadTags hne _ s1).trans hent.loggers
      have hdoes := does_suites
        (Does.sequences (composes_planNamed lg (forkStatusOf x.env s.sr.fstat) (x := x)))
        (I := Midrun x (loadTags (effectiveArgs x.env a) s1).heap (forkStatusOf x.env s.sr.fstat))
        (fun _ hm => hm.heap) (tagged_loadTags (hent.tags htags))
        (fun su => does_suiteEvent_names (fun _ => rfl) (.inl rfl) (fun _ => rfl) fun _ => rfl)
        (fun su => does_suiteEvent_names (fun _ => rfl) (.inr rfl) (fun _ => rfl) fun _ => rfl)
        fun tc _ => does_srunnerRunTcase_names (hlgs.symm ▸ hlg)
          (hlgs.symm ▸ nodup_registered x s.sr a.printMode)
      obtain ⟨hm, -, hnames⟩ := hdoes (loadTags _ s1) b t
        ⟨rfl, hent.file1, congrArg (fun r => forkStatusOf x.env r.fstat) hent.runner⟩ hres
      have hstart : (loadTags (effectiveArgs x.env a) s1).proc = s1.proc := rfl
      have hnow : (loadTags (effectiveArgs x.env a) s1).now = s1.now := rfl
      rw [hsame.plan, hsame.planStarted, hstart, hnow, hent.now, hent.pending] at hnames
      have hfree : (freeTags t).proc.hist = t.proc.hist := rfl
      have hlgs' : (freeTags t).heap.lists .loglst = registered x s.sr a.printMode := by
        rw [lists_freeTags hne, hm.heap]
        exact hlgs
      rw [subunitNames, (hleft hlgs').seen _ hquiet, hfree]
      refine hnames.trans (congrArg₂ _ (hent.seen _ hquiet) ?_)
      exact List.flatMap_congr fun t _ => hsame.startedNames t

/-- The logger of a run that prints subunit packets. -/
def subunitLog : Log := ⟨.stdout, .subunitLfun, false, .subunit⟩

/-- **The names of the tests**, for every run that prints subunit packets and returns,
in both modes: every test is started and ended under its own name, the test case name,
a colon and the name of the test function, if and only if for every test that is
started this name has at most 98 bytes and, without forking, none of its checked
setups reports a failure, of its own or one that an unchecked teardown left behind (or
the test is itself named like that report). -/
theorem subunit_names_iff {x : Ctx} {s s' : St CkList UInt8 NestedRun} {a : RunArgs}
    {tags : TCaseId → Option CStr} (hs : Legible x.cfg s.proc) (h2 : s.proc.sendFile2 = none)
    (htags : ∀ tc, (s.heap.lists (.tags tc)).elems = tagStringToList (tags tc))
    (hprint : a.printMode = .subunit) (h : srunnerRunTagged x (runNested x) a s = .ok () s') :
    ∃ ns, subunitNames subunitLog x.lvl s'.proc.hist =
        subunitNames subunitLog x.lvl s.proc.hist ++ ns ∧
      (OwnNames s.heap ns ↔
        ∀ t ∈ planStarted s.heap (s.now.tcrun, false) (plan (effectiveArgs x.env a) s.heap tags),
          (s.heap.tcName t.tc).strlen + 1 + t.tfun.ttest.name.strlen ≤ 98 ∧
            (t.setupReports s.heap (forkStatusOf x.env s.sr.fstat) = true →
              t.tfun.ttest.name = .lit "checked_setup")) := by
  refine ⟨(planStarted s.heap (s.now.tcrun, false)
      (plan (effectiveArgs x.env a) s.heap tags)).flatMap
        (Started.names s.heap (forkStatusOf x.env s.sr.fstat)), ?_, ownNames_iff _⟩
  obtain ⟨t, hst⟩ := hs.exists_stRel
  obtain ⟨t', ht', hst'⟩ :=
    (sim_srunnerRunTagged (x := x) (keeps_runNested _) (sim_runNested _) a).of_ok hst h
  cases hst with
  | mk hfile1 hfile2 =>
      cases hst' with
      | mk _ _ =>
          have hsame : SameCases s.heap s.heap.abs := ⟨rfl, rfl, fun _ _ _ => rfl⟩
          rw [h2] at hfile2
          cases hfile2
          have hlg : subunitLog ∈ registered x s.sr a.printMode := by
            rw [registered, hprint]
            exact List.mem_cons_self
          have hnames := subunitNames_srunnerRunTagged rfl htags hlg ht'
          have hplan : plan (effectiveArgs x.env a) s.heap.abs tags =
            plan (effectiveArgs x.env a) s.heap tags := hsame.plan _ tags
          rw [← hsame.planStarted, ← hplan]
          refine hnames.trans (congrArg _ ?_)
          exact List.flatMap_congr fun t _ => hsame.startedNames t

namespace Sample

/-- The arguments of `srunner_run_all` with `CK_SUBUNIT`. -/
def subunitArgs : RunArgs := { args with printMode := .subunit }

/-- One test, with the given checked setups. -/
def withSetups (fs : List (Fixture NestedRun)) (tname : String) : List (Case NestedRun) :=
  [⟨fun fl => if fl = .chSflst then fs else [],
    [tcaseAddTest ⟨.lit tname, fun _ _ => [fail], loc⟩ 0 0 0 1], none⟩]

/-- The names in a run of it. -/
def namesOf (fs : List (Fixture NestedRun)) (tname : String) (fstat : ForkStatus) :
    Option (List NameEvent) :=
  (returned (srunnerRunTagged ctx (runNested ctx) subunitArgs
    (start (withSetups fs tname) fstat))).map fun r => subunitNames subunitLog 0 r.2.proc.hist

end Sample

/-- A failing test with a setup that passes, without forking. -/
theorem subunit_names_iff_setup :
    ∃ s', srunnerRunTagged Sample.ctx (runNested Sample.ctx) Sample.subunitArgs
        (Sample.start (Sample.withSetups [Sample.fixture []] "t") .nofork) = .ok () s' ∧
      OwnNames (Sample.start (Sample.withSetups [Sample.fixture []] "t") .nofork).heap
        (subunitNames subunitLog 0 s'.proc.hist) := by
  have hfinal : (Sample.namesOf [Sample.fixture []] "t" .nofork).map List.length = some 3 := by
    decide +kernel
  rw [Sample.namesOf, Option.map_map] at hfinal
  obtain ⟨_, s', hrun, -⟩ := ok_of_returned hfinal
  obtain ⟨ns, hns, hiff⟩ := subunit_names_iff
    (s := Sample.start (Sample.withSetups [Sample.fixture []] "t") .nofork)
    (legible_of_closed rfl rfl) rfl
    (Sample.elems_tags (Sample.withSetups [Sample.fixture []] "t") .nofork) rfl hrun
  refine ⟨s', hrun, ?_⟩
  rw [show subunitNames subunitLog 0 s'.proc.hist = ns from hns]
  exact hiff.mpr (by decide +kernel)

/-- Two tests that are not ended under the name they are started with: without forking,
one whose setup fails, and one with a name of 120 bytes. -/
theorem subunit_names_differ :
    Sample.namesOf [Sample.fixture [Sample.fail]] "t" .nofork =
        some [.iter 0 (.lit "t"), .start (.lit "tc:t"), .stop (.lit "tc:checked_setup")] ∧
      (∃ n n', Sample.namesOf [] (String.ofList (List.replicate 120 'a')) .fork =
        some [.iter 0 (.lit (String.ofList (List.replicate 120 'a'))), .start n, .stop n'] ∧
          n.strlen = 98 ∧ n'.strlen = 123) := by
  refine ⟨by decide +kernel, .lit ("tc:" ++ String.ofList (List.replicate 95 'a')),
    .lit ("tc:" ++ String.ofList (List.replicate 120 'a')), ?_⟩
  decide +kernel

end LibCheck
