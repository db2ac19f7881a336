import LibCheck.Reentry

/-!
# LibCheck.Calls

Which functions of the user a test calls, in both modes.

The functions are plain: they pass, or fail by an assertion.  They are followed
on the abstract machine like in `LibCheck.Report`, but here the calls are
recorded instead of the messages.

* `upToFailure` — fixtures are called up to the first one that fails.
* `Went` — between two states, some functions were called and messages sent.
* `testProcess_goes`, `tcaseRunTfunNofork_calls` — the calls of a test in a
  process of its own, and in the same process.
-/

namespace LibCheck

open Prog

variable {ν : Type}

/-! ## calls -/

/-- A call of a function of the user, or the begin of a test case. -/
inductive UserCall where
  | tcase (tc : TCaseId)
  | fixture (fl : FixtureList) (addr : Nat)
  | body (tname : CStr) (i : Int)
deriving DecidableEq, Repr

/-- The call that is observed. -/
def Obs.userCall? : Obs → Option UserCall
  | .tcase tc => some (.tcase tc)
  | .fixture fl addr => some (.fixture fl addr)
  | .body tname i => some (.body tname i)
  | _ => none

/-- The calls in the run at nesting level `lvl`. -/
def userCalls (lvl : Nat) (hist : List (Nat × Obs)) : List UserCall :=
  shown Obs.userCall? lvl hist

/-- The fixtures up to and including the first one that fails. -/
def upToFailure (now : When) (fs : List (Fixture ν)) : List (Fixture ν) :=
  upTo (fun f => fails (f.sfun.acts now)) fs

/-- One of the fixtures fails. -/
def someFails (now : When) (fs : List (Fixture ν)) : Bool := fs.any fun f => fails (f.sfun.acts now)

/-- The calls of fixtures. -/
def fixtureCalls (fl : FixtureList) (fs : List (Fixture ν)) : List UserCall :=
  fs.map fun f => .fixture fl f.sfun.addr

/-- The calls of a test: its checked setups up to the first one that fails; if none
fails its function; and then its checked teardowns up to the first one that fails, in a
process of its own (`mode` is `CK_FORK`) only if the function passed. -/
def testCalls (mode : ForkStatus) (t : TestCode ν) : List UserCall :=
  fixtureCalls .chSflst (upToFailure t.now t.setups) ++
    if someFails t.now t.setups then []
    else .body t.tfun.ttest.name t.iter ::
      if mode = .fork ∧ fails t.body then []
      else fixtureCalls .chTflst (upToFailure t.now t.teardowns)

/-! ## functions -/

/-- From `s` to `s'`, the functions `os` were called and messages were sent. -/
structure Went (x : Ctx) (os : List UserCall) (s s' : St List SendMsg ν) : Prop where
  wrote : ∃ ms, Wrote ms s s' ∧ ∀ m ∈ ms, m.NonNeg ∧ m ≠ .ctx .invalid
  calls : userCalls x.lvl s'.proc.hist = userCalls x.lvl s.proc.hist ++ os

namespace Went

variable {x : Ctx} {os os' : List UserCall} {s s' s'' : St List SendMsg ν}

protected theorem refl (s : St List SendMsg ν) : Went x [] s s :=
  ⟨⟨[], .refl s, fun _ hm => absurd hm List.not_mem_nil⟩, (List.append_nil _).symm⟩

theorem trans (h : Went x os s s') (h' : Went x os' s' s'') : Went x (os ++ os') s s'' := by
  obtain ⟨ms, hw, hv⟩ := h.wrote
  obtain ⟨ms', hw', hv'⟩ := h'.wrote
  refine ⟨⟨ms ++ ms', hw.trans hw', List.forall_mem_append.mpr ⟨hv, hv'⟩⟩, ?_⟩
  rw [h'.calls, h.calls, List.append_assoc]

theorem memory (h : Went x os s s') : s'.memory = s.memory := by
  obtain ⟨ms, hw, -⟩ := h.wrote
  exact hw.memory

theorem now (h : Went x os s s') : s'.now = s.now := congrArg (fun m => m.2.2) h.memory

theorem heap (h : Went x os s s') : s'.heap = s.heap := congrArg (fun m => m.1) h.memory

theorem sr (h : Went x os s s') : s'.sr = s.sr := congrArg (fun m => m.2.1) h.memory

theorem fstat (h : Went x os s s') : s'.proc.fstat = s.proc.fstat := by
  obtain ⟨ms, hw, -⟩ := h.wrote
  exact hw.fstat

theorem ready (h : Went x os s s') (hr : Ready s) : Ready s' := by
  obtain ⟨ms, hw, -⟩ := h.wrote
  exact hw.ready hr

/-- What can be received is not made unreadable. -/
theorem talking (h : Went x os s s') (hs : s.proc.Talking) : s'.proc.Talking := by
  obtain ⟨ms, hw, hv⟩ := h.wrote
  obtain ⟨f, hf, hnn, hlast⟩ := hs
  refine ⟨_, hw.getPipe hf, List.forall_mem_append.mpr ⟨hnn, fun m hm => (hv m hm).1⟩, ?_⟩
  show (received rcvmsgCreate (f.content ++ ms)).lastctx ≠ .invalid
  rw [received_append]
  exact received_lastctx_ne_invalid hlast fun m hm => (hv m hm).2

theorem readable (h : Went x os s s') (hs : s.proc.Readable) : s'.proc.Readable := by
  obtain ⟨ms, hw, hv⟩ := h.wrote
  obtain ⟨f, hf, hnn⟩ := hs
  exact ⟨_, hw.getPipe hf, List.forall_mem_append.mpr ⟨hnn, fun m hm => (hv m hm).1⟩⟩

end Went

section

variable {x : Ctx} {call : ν → RunM List SendMsg ν Unit} {s : St List SendMsg ν}

/-- Sending calls nothing. -/
theorem went_fwrite {m : SendMsg} (hnn : m.NonNeg) (hv : m ≠ .ctx .invalid)
    (s : St List SendMsg ν) :
    Went x [] s (s.onProc (Proc.fwrite [m])) := by
  refine ⟨⟨[m], wrote_fwrite [m] s, List.forall_mem_singleton.mpr ⟨hnn, hv⟩⟩, ?_⟩
  show userCalls x.lvl (s.proc.fwrite [m]).hist = _
  rw [Proc.hist_fwrite, List.append_nil]

/-- A context is sent, and from then on a result can be received. -/
theorem went_sendCtx (hr : Ready s) (hctx : ∀ c, Limited x.cfg.maxMsg [.ctx c]) {c : CkResultCtx}
    (hc : c ≠ .invalid) :
    ∃ s', sendCtxInfo x c s = .ok () s' ∧ Went x [] s s' ∧
      (s.proc.Readable → s'.proc.Talking) := by
  refine ⟨_, sendMsg_of_ready hr (nonNeg_ctx c) (hctx c),
    went_fwrite (nonNeg_ctx c) (fun he => hc (by cases he; rfl)) s, ?_⟩
  rintro ⟨f, hf, hnn⟩
  refine ⟨_, (wrote_fwrite [.ctx c] s).getPipe hf, ?_, ?_⟩
  · exact List.forall_mem_append.mpr ⟨hnn, List.forall_mem_singleton.mpr (nonNeg_ctx c)⟩
  · show (received rcvmsgCreate (f.content ++ [.ctx c])).lastctx ≠ .invalid
    rw [received_append, received_cons, received_nil]
    exact hc

/-- One more call is observed. -/
theorem went_observe {o : Obs} {c : UserCall} (ho : o.userCall? = some c) (s : St List SendMsg ν) :
    Went x [c] s (s.onProc (Proc.observe x.lvl o)) := by
  refine ⟨⟨[], wrote_observe o s, fun _ hm => absurd hm List.not_mem_nil⟩, ?_⟩
  show shown Obs.userCall? x.lvl (s.proc.hist ++ [(x.lvl, o)]) = _
  rw [shown_append, ho]
  rfl

/-- A failing assertion calls nothing. -/
theorem went_ckAssertFailed (hr : Ready s) (loc : SrcLoc) (expr : CStr) (msg : Option CStr)
    (hlim : Limited x.cfg.maxMsg [loc.msg, .fail (some (failureText x.cfg expr msg))]) :
    ∃ s', Went x [] s s' ∧ (do
      ckAssertFailed x loc expr msg
      pure true) s = leave x s.proc s' := by
  obtain ⟨s', hw, hrun⟩ := ckAssertFailed_of_ready hr loc expr msg hlim
  have hnn : (CheckMsg.fail (some (failureText x.cfg expr msg)) : SendMsg).NonNeg := trivial
  refine ⟨s', ⟨⟨_, hw, List.forall_mem_cons.mpr ⟨⟨loc.nonNeg_msg, fun he => nomatch he⟩,
    List.forall_mem_singleton.mpr ⟨hnn, fun he => nomatch he⟩⟩⟩, ?_⟩, hrun⟩
  have hinv := msgsInv_shown x Obs.userCall? (userCalls x.lvl s.proc.hist)
  have hcalls : MsgsInv.Holds (fun m => userCalls x.lvl m.2.2 = userCalls x.lvl s.proc.hist)
      (fun m => userCalls x.lvl m.2.2 = userCalls x.lvl s.proc.hist) (do
        ckAssertFailed x loc expr msg
        pure true : RunM List SendMsg ν Bool) :=
    Maintains.bind (hinv.seqClosed.ckAssertFailed (a := ⟨loc, expr, msg⟩) hinv.sendMsg
      (hinv.observes _ rfl)) fun _ => Maintains.pure true
  have hend := hcalls s rfl
  rw [hrun, leave] at hend
  rw [List.append_nil]
  by_cases hf : s.proc.fstat = .fork
  · rw [if_pos hf] at hend
    exact hend.1
  · rw [if_neg hf] at hend
    by_cases hj : s.proc.errorJmpBuffer = some x.lvl
    · rw [if_pos hj] at hend
      exact hend
    · rw [if_neg hj] at hend
      exact hend.1

variable (call) in
/-- A plain function calls no other one. -/
theorem runFun_went {acts : List (Act ν)} (hp : Plain acts) (hr : Ready s)
    (hlim : Limited x.cfg.maxMsg (messages x.cfg acts)) :
    ∃ s', Went x [] s s' ∧
      runFun x call acts s = if fails acts then leave x s.proc s' else .ok false s' := by
  induction hp generalizing s with
  | nil => exact ⟨s, .refl s, rfl⟩
  | @markPoint loc acts hp ih =>
      obtain ⟨hm, hms⟩ := List.forall_mem_cons.mp hlim
      have hsend := sendMsg_of_ready (x := x) hr loc.nonNeg_msg (List.forall_mem_singleton.mpr hm)
      have hw : Went x [] s (s.onProc (Proc.fwrite [loc.msg])) :=
        went_fwrite loc.nonNeg_msg (fun he => nomatch he) s
      obtain ⟨s', hw', hrun⟩ := ih (hw.ready hr) hms
      refine ⟨s', hw.trans hw', (bind_of_ok _ hsend).trans (hrun.trans ?_)⟩
      rw [leave, leave, hw.fstat, St.onProc, errorJmpBuffer_fwrite]
      rfl
  | assertFailed loc expr msg => exact went_ckAssertFailed hr loc expr msg hlim

variable (call) in
/-- A plain fixture. -/
theorem callFixture_went (fl : FixtureList) {f : Fixture ν}
    (hp : PlainFun x.cfg (f.sfun.acts s.now)) (hr : Ready s) :
    ∃ s', Went x [.fixture fl f.sfun.addr] s s' ∧
      callFixture x call fl f s =
        if fails (f.sfun.acts s.now) then leave x s.proc s' else .ok false s' := by
  have hw : Went x [.fixture fl f.sfun.addr] s _ :=
    went_observe (o := .fixture fl f.sfun.addr) rfl s
  obtain ⟨s', hw', hrun⟩ := runFun_went call hp.1 (hw.ready hr) hp.2
  exact ⟨s', hw.trans hw', hrun⟩

variable (call) in
/-- A plain test function. -/
theorem callTest_went {t : TestCode ν} (ht : t.Plain x.cfg) (hr : Ready s) (hnow : s.now = t.now) :
    ∃ s', Went x [.body t.tfun.ttest.name t.iter] s s' ∧
      callTest x call t.tfun t.iter s =
        if fails t.body then leave x s.proc s' else .ok false s' := by
  obtain ⟨-, hloc⟩ := List.forall_mem_cons.mp ht.header
  let s1 := s.onProc (Proc.fwrite [.ctx .test])
  let s2 := s1.onProc (Proc.fwrite [t.tfun.ttest.loc.msg])
  have hsend1 : sendCtxInfo x .test s = .ok () s1 := sendMsg_of_ready hr (nonNeg_ctx _) (ht.ctx _)
  have hw1 : Went x [] s s1 := went_fwrite (nonNeg_ctx _) (by decide) s
  have hsend2 : sendLocInfo x t.tfun.ttest.loc s1 = .ok () s2 :=
    sendMsg_of_ready (hw1.ready hr) t.tfun.ttest.loc.nonNeg_msg hloc
  have hw2 : Went x [] s1 s2 := went_fwrite t.tfun.ttest.loc.nonNeg_msg (fun he => nomatch he) s1
  have hw3 : Went x [.body t.tfun.ttest.name t.iter] s2 _ :=
    went_observe (o := .body t.tfun.ttest.name t.iter) rfl s2
  have hw := (hw1.trans hw2).trans hw3
  obtain ⟨s', hw', hrun⟩ := runFun_went call ht.body.1 (hw.ready hr) ht.body.2
  refine ⟨s', hw.trans hw', ?_⟩
  have hcall : callTest x call t.tfun t.iter s =
      runFun x call t.body (s2.onProc (Proc.observe x.lvl (.body t.tfun.ttest.name t.iter))) := by
    rw [callTest, bind_of_ok _ hsend1, bind_of_ok _ hsend2, update_bind, read_bind,
      show (s2.onProc (Proc.observe x.lvl (.body t.tfun.ttest.name t.iter))).now = t.now from
        hw.now.trans hnow]
    rfl
  have hjmp : s2.proc.errorJmpBuffer = s.proc.errorJmpBuffer :=
    (errorJmpBuffer_fwrite _ _).trans (errorJmpBuffer_fwrite _ _)
  rw [hcall, hrun, leave, leave, hw.fstat, ← hjmp]
  rfl

/-- A function called behind a `setjmp`. -/
theorem protect_went {f : RunM List SendMsg ν Bool} (os : List UserCall) {b : Bool}
    (h : ∀ s1 : St List SendMsg ν, Went x [] s s1 →
      ∃ s', Went x os s1 s' ∧ f s1 = if b then leave x s1.proc s' else .ok false s') :
    ∃ s', Went x os s s' ∧ protect x f s =
      if b then (if s.proc.fstat = .fork then .error (.exited 1) s' else .ok true s')
      else .ok false s' := by
  have hw : Went x [] s (s.onProc fun p => { p with errorJmpBuffer := some x.lvl }) :=
    ⟨⟨[], ⟨rfl, rfl, rfl, (Wrote.refl s).file1, (Wrote.refl s).file2⟩,
      fun _ hm => absurd hm List.not_mem_nil⟩, (List.append_nil _).symm⟩
  obtain ⟨s', hw', hf⟩ := h _ hw
  refine ⟨s', hw.trans hw', ?_⟩
  rw [protect, update_bind, hf, leave]
  simp only [St.onProc, if_true]

theorem composes_went : Composes fun s os s' => Went (ν := ν) x os s s' where
  refl := Went.refl
  trans := Went.trans

/-! ## a child process -/

/-- A part of a child process: it calls `os`, and exits with an assertion that failed
or returns `a`. -/
def Goes (x : Ctx) (os : List UserCall) (b : Bool) (a : α) (y : RunM List SendMsg ν α)
    (s : St List SendMsg ν) : Prop :=
  ∃ s', Went x os s s' ∧ y s = if b then .error (.exited 1) s' else .ok a s'

theorem Goes.bind {os os' : List UserCall} {b b' : Bool} {a : α} {c : γ}
    {y : RunM List SendMsg ν α} {f : α → RunM List SendMsg ν γ} (h : Goes x os b a y s)
    (h' : b = false → ∀ s1, Went x os s s1 → Goes x os' b' c (f a) s1) :
    Goes x (os ++ if b then [] else os') (b || b') c (y >>= f) s := by
  obtain ⟨s1, hw, hy⟩ := h
  cases b with
  | true =>
      refine ⟨s1, by simpa using hw, ?_⟩
      rw [bind_of_error f hy]
      rfl
  | false =>
      obtain ⟨s2, hw', hf⟩ := h' rfl s1 hw
      refine ⟨s2, hw.trans hw', ?_⟩
      rw [bind_of_ok f hy, hf]
      rfl

/-- A walk over fixtures in a child process. -/
theorem findSomeM_goes (fl : FixtureList) (body : Fixture ν → RunM List SendMsg ν (Option α))
    {now : When} {fs : List (Fixture ν)}
    (h : ∀ f ∈ fs, ∀ s : St List SendMsg ν, Ready s → s.proc.fstat = .fork → s.now = now →
      Goes x [.fixture fl f.sfun.addr] (fails (f.sfun.acts now)) none (body f) s)
    (hr : Ready s) (hf : s.proc.fstat = .fork) (hnow : s.now = now) :
    Goes x (fixtureCalls fl (upToFailure now fs)) (someFails now fs) none
      (fs.findSomeM? body) s := by
  have hone : ∀ f ∈ fs, ∀ s1 : St List SendMsg ν, Ready s1 ∧ s1.proc.fstat = .fork ∧ s1.now = now →
      ∃ s', (Ready s' ∧ s'.proc.fstat = .fork ∧ s'.now = now) ∧
        Went x [.fixture fl f.sfun.addr] s1 s' ∧
          body f s1 = if fails (f.sfun.acts now) then .error (.exited 1) s' else .ok none s' := by
    rintro f hfs s1 ⟨hr, hf, hnow⟩
    obtain ⟨s', hw, hrun⟩ := h f hfs s1 hr hf hnow
    exact ⟨s', ⟨hw.ready hr, hw.fstat.trans hf, hw.now.trans hnow⟩, hw, hrun⟩
  have hwalk := findSomeM_upTo (composes_went (x := x)) (fun s' => .error (Stop.exited 1) s')
    (fun _ _ he => nomatch he) (p := fun f : Fixture ν => fails (f.sfun.acts now))
    (g := fun f => .fixture fl f.sfun.addr) hone ⟨hr, hf, hnow⟩
  obtain ⟨s', -, hw, hrun⟩ := hwalk
  exact ⟨s', hw, hrun⟩

variable (call) in
/-- A checked setup in a child process. -/
theorem runSetup_goes {fl : FixtureList} {tname sname : CStr} {f : Fixture ν}
    (hp : PlainFun x.cfg (f.sfun.acts s.now)) (hr : Ready s) (hf : s.proc.fstat = .fork) :
    Goes x [.fixture fl f.sfun.addr] (fails (f.sfun.acts s.now)) none
      (runSetup x call fl .fork tname sname f) s := by
  obtain ⟨s', hw, hcall⟩ := callFixture_went call fl hp hr
  refine ⟨s', hw, ?_⟩
  rw [runSetup, if_neg (by decide), bind_apply, unprotected_of_leave hf hcall]
  cases fails (f.sfun.acts s.now) <;> rfl

variable (call) in
/-- A teardown, called behind a `setjmp`. -/
theorem runTeardown_went (fl : FixtureList) {f : Fixture ν}
    (hp : PlainFun x.cfg (f.sfun.acts s.now)) (hctx : ∀ c, Limited x.cfg.maxMsg [.ctx c])
    (hr : Ready s) :
    ∃ s', Went x [.fixture fl f.sfun.addr] s s' ∧ runTeardown x call fl .nofork f s =
      if fails (f.sfun.acts s.now) then
        (if s.proc.fstat = .fork then .error (.exited 1) s' else .ok (some ()) s')
      else .ok none s' := by
  obtain ⟨s1, hsend, hw1, -⟩ := went_sendCtx hr hctx (c := .teardown) (by decide)
  obtain ⟨s2, hw2, hprot⟩ := protect_went [.fixture fl f.sfun.addr] (x := x) (s := s1)
    (f := callFixture x call fl f) (b := fails (f.sfun.acts s.now)) (by
      intro s2 hw2
      have hnow2 : s2.now = s.now := hw2.now.trans hw1.now
      rw [← hnow2] at hp ⊢
      exact callFixture_went call fl hp (hw2.ready (hw1.ready hr)))
  refine ⟨s2, hw1.trans hw2, ?_⟩
  rw [runTeardown, bind_of_ok _ hsend, if_pos rfl, bind_apply, hprot, hw1.fstat]
  cases fails (f.sfun.acts s.now) with
  | false => rfl
  | true =>
      by_cases hfork : s.proc.fstat = .fork
      · simp only [hfork, if_true]
      · simp only [hfork, if_true, if_false]
        rfl

/-- A walk over a list of the heap. -/
theorem forList_of_lists {r : LRef} {xs : List (r.Elem ν)} (h : s.heap.lists r = xs)
    (body : r.Elem ν → RunM List SendMsg ν (Option α)) :
    forList x r body s = xs.findSomeM? body s := by
  subst h
  rfl

variable (call) in
/-- The checked setups of a child process. -/
theorem tcaseRunCheckedSetup_goes {t : TestCode ν} (ht : t.Plain x.cfg) {tc : TCaseId}
    (hset : s.heap.lists (.fixtures .chSflst tc) = t.setups) (hnow : s.now = t.now) (hr : Ready s)
    (hf : s.proc.fstat = .fork) (hsr : forkStatusOf x.env s.sr.fstat = .fork) :
    ∃ s', Went x (fixtureCalls .chSflst (upToFailure t.now t.setups)) s s' ∧
      (s.proc.Readable → s'.proc.Talking) ∧ tcaseRunCheckedSetup x call tc s =
        if someFails t.now t.setups then .error (.exited 1) s' else .ok none s' := by
  obtain ⟨s1, hsend, hw1, htalk⟩ := went_sendCtx hr ht.ctx (c := .setup) (by decide)
  obtain ⟨s', hw', hwalk⟩ := findSomeM_goes .chSflst
    (runSetup x call .chSflst .fork (s.heap.tcName tc) (.lit "checked_setup"))
    (fun f hfs s2 hr2 hf2 hnow2 => by
      rw [← hnow2]
      exact runSetup_goes call (hnow2 ▸ ht.setups f hfs) hr2 hf2)
    (hw1.ready hr) (hw1.fstat.trans hf) (hw1.now.trans hnow)
  refine ⟨s', hw1.trans hw', fun hread => hw'.talking (htalk hread), ?_⟩
  rw [tcaseRunCheckedSetup, srunnerForkStatus, read_bind, read_bind, srunnerRunSetup,
    hsr, if_pos rfl]
  refine (bind_of_ok _ hsend).trans ((forList_of_lists ?_ _).trans hwalk)
  rw [hw1.heap]
  exact hset

variable (call) in
/-- The checked teardowns of a child process. -/
theorem tcaseRunCheckedTeardown_goes {t : TestCode ν} (ht : t.Plain x.cfg) {tc : TCaseId}
    (htear : s.heap.lists (.fixtures .chTflst tc) = t.teardowns) (hnow : s.now = t.now)
    (hr : Ready s) (hf : s.proc.fstat = .fork) :
    Goes x (fixtureCalls .chTflst (upToFailure t.now t.teardowns)) (someFails t.now t.teardowns) ()
      (tcaseRunCheckedTeardown x call tc) s := by
  obtain ⟨s', hw, hwalk⟩ := findSomeM_goes .chTflst (runTeardown x call .chTflst .nofork)
    (fun f hfs s1 hr1 hf1 hnow1 => by
      obtain ⟨s2, hw2, hrun⟩ := runTeardown_went call .chTflst (s := s1) (f := f)
        (hnow1 ▸ ht.teardowns f hfs) ht.ctx hr1
      rw [if_pos hf1, hnow1] at hrun
      exact ⟨s2, hw2, hrun⟩) hr hf hnow
  refine ⟨s', hw, ?_⟩
  rw [tcaseRunCheckedTeardown, srunnerRunTeardown, bind_apply, forList_of_lists htear, hwalk]
  cases someFails t.now t.teardowns <;> rfl

/-- A child process ends in `c`, with an exit status. -/
def EndsWith (status : UInt8) (c : St List SendMsg ν)
    (r : EStateM.Result Stop (St List SendMsg ν) Unit) : Prop :=
  (r = .ok () c ∧ status = 0) ∨ r = .error (.exited status) c

/-- The last part of a child process calls nothing.  With a `size_t` of 64 bits, a duration
that is negative as an `int` is refused. -/
theorem duration_ends {d : Int32} (hr : Ready s) (hd : x.cfg.sz = .w32 → 0 ≤ d.toInt) :
    ∃ status c, Went x [] s c ∧ EndsWith status c ((do
      sendDurationInfo x d
      killPoint : RunM List SendMsg ν Unit) s) := by
  rcases sendMsg_refused_or_sent (x := x) hr (.duration d) with hsend | hsend
  · exact ⟨2, s, .refl s, .inr (bind_of_error _ hsend)⟩
  · have hnn : 0 ≤ d.toInt := by
      cases hsz : x.cfg.sz with
      | w32 => exact hd hsz
      | w64 => exact nonNeg_of_sent (m := .duration d) hsz hsend
    have hw : Went x [] s (s.onProc (Proc.fwrite [.duration d])) :=
      went_fwrite (m := .duration d) hnn (by rintro ⟨⟩) s
    refine ⟨0, _, hw, .inl ⟨?_, rfl⟩⟩
    rw [sendDurationInfo, bind_of_ok _ hsend, killPoint, read_bind, (hw.ready hr).1]
    rfl

variable (call) in
/-- **The calls of a child process.** -/
theorem testProcess_goes {t : TestCode ν} (ht : t.Plain x.cfg) {tc : TCaseId}
    (hcode : testCode s.heap tc t.tfun t.iter s.now = t) (hr : Ready s) (hread : s.proc.Readable)
    (hf : s.proc.fstat = .fork) (hsr : forkStatusOf x.env s.sr.fstat = .fork)
    (hd : x.cfg.sz = .w32 → 0 ≤ (testDuration x t.now).toInt) :
    ∃ (status : UInt8) (c : St List SendMsg ν), Went x (testCalls .fork t) s c ∧ c.proc.Talking ∧
      EndsWith status c (testProcess x call tc t.tfun t.iter s) := by
  have hset : s.heap.lists (.fixtures .chSflst tc) = t.setups := congrArg TestCode.setups hcode
  have htear : s.heap.lists (.fixtures .chTflst tc) = t.teardowns :=
    congrArg TestCode.teardowns hcode
  have hnow : s.now = t.now := congrArg TestCode.now hcode
  obtain ⟨s1, hw1, htalk, hsetup⟩ := tcaseRunCheckedSetup_goes call ht hset hnow hr hf hsr
  cases hfs : someFails t.now t.setups with
  | true =>
      rw [hfs] at hsetup
      refine ⟨1, s1, ?_, htalk hread, .inr (bind_of_error _ hsetup)⟩
      rw [testCalls, if_pos hfs, List.append_nil]
      exact hw1
  | false =>
      rw [hfs] at hsetup
      -- the function and the teardowns, each if those before did not fail
      obtain ⟨s2, hw2, hbody⟩ := callTest_went call ht (hw1.ready hr) (hw1.now.trans hnow)
      have hfuns : Goes x ([.body t.tfun.ttest.name t.iter] ++ if fails t.body then []
          else fixtureCalls .chTflst (upToFailure t.now t.teardowns))
          (fails t.body || someFails t.now t.teardowns) () (do
            unprotected (callTest x call t.tfun t.iter)
            tcaseRunCheckedTeardown x call tc) s1 := by
        refine Goes.bind ⟨s2, hw2, unprotected_of_leave (hw1.fstat.trans hf) hbody⟩
          fun _ s3 hw3 => ?_
        have hw13 := hw1.trans hw3
        have htear3 : s3.heap.lists (.fixtures .chTflst tc) = t.teardowns := by
          rw [hw13.heap]
          exact htear
        exact tcaseRunCheckedTeardown_goes call ht htear3 (hw13.now.trans hnow) (hw13.ready hr)
          (hw13.fstat.trans hf)
      obtain ⟨s4, hw4, hfuns⟩ := hfuns
      have hcalls : testCalls .fork t = fixtureCalls .chSflst (upToFailure t.now t.setups) ++
          ([.body t.tfun.ttest.name t.iter] ++ if fails t.body then []
            else fixtureCalls .chTflst (upToFailure t.now t.teardowns)) := by
        simp [testCalls, hfs]
      have hrun : testProcess x call tc t.tfun t.iter s = (do
          (do unprotected (callTest x call t.tfun t.iter)
              tcaseRunCheckedTeardown x call tc)
          let now ← read fun s => s.now
          sendDurationInfo x (testDuration x now)
          killPoint) s1 := by
        rw [bind_assoc]
        exact bind_of_ok _ hsetup
      have hw14 := hw1.trans hw4
      rw [hcalls, hrun]
      cases hb : fails t.body || someFails t.now t.teardowns with
      | true =>
          rw [hb] at hfuns
          exact ⟨1, s4, hw14, hw4.talking (htalk hread), .inr (bind_of_error _ hfuns)⟩
      | false =>
          rw [hb] at hfuns
          obtain ⟨status, c, hwc, hend⟩ := duration_ends (d := testDuration x t.now)
            (hw14.ready hr) hd
          have hwall := hw14.trans hwc
          rw [List.append_nil] at hwall
          refine ⟨status, c, hwall, hwc.talking (hw4.talking (htalk hread)), ?_⟩
          rw [bind_of_ok _ hfuns, read_bind, hw14.now, hnow]
          exact hend

/-! ## the runner -/

/-- The runner can send and receive: it is not going to be killed, its message file is
open, and all of it can be read. -/
structure Able (s : St List SendMsg ν) : Prop where
  killIn : s.proc.killIn = none
  file1 : s.proc.sendFile1.isSome
  readable : s.proc.Readable

theorem Able.ready (h : Able s) : Ready s := by
  obtain ⟨f, hf, -⟩ := h.readable
  exact ⟨h.killIn, by rw [hf]; rfl⟩

/-- From `s` to `s'`, the functions `os` were called, and the runner is still able to
send and receive. -/
structure Served (x : Ctx) (os : List UserCall) (s s' : St List SendMsg ν) : Prop where
  memory : s'.memory = s.memory
  fstat : s'.proc.fstat = s.proc.fstat
  able : Able s'
  calls : userCalls x.lvl s'.proc.hist = userCalls x.lvl s.proc.hist ++ os

namespace Served

variable {os os' : List UserCall} {s' s'' : St List SendMsg ν}

theorem trans (h : Served x os s s') (h' : Served x os' s' s'') : Served x (os ++ os') s s'' :=
  ⟨h'.memory.trans h.memory, h'.fstat.trans h.fstat, h'.able, by
    rw [h'.calls, h.calls, List.append_assoc]⟩

theorem now (h : Served x os s s') : s'.now = s.now := congrArg (fun m => m.2.2) h.memory

theorem heap (h : Served x os s s') : s'.heap = s.heap := congrArg (fun m => m.1) h.memory

theorem sr (h : Served x os s s') : s'.sr = s.sr := congrArg (fun m => m.2.1) h.memory

end Served

theorem Went.served {os : List UserCall} {s' : St List SendMsg ν} (h : Went x os s s')
    (hs : Able s) :
    Served x os s s' := by
  refine ⟨h.memory, h.fstat, ⟨(h.ready hs.ready).1, ?_, h.readable hs.readable⟩, h.calls⟩
  obtain ⟨ms, hw, -⟩ := h.wrote
  rw [hw.file1, Proc.fwrite]
  cases s.proc.sendFile2 with
  | some g => exact hs.file1
  | none =>
      rw [Option.isSome_map]
      exact hs.file1

/-- The runner after it has received a result. -/
theorem served_renew {os : List UserCall} {s' : St List SendMsg ν} (h : Served x os s s') :
    Served x os s (s'.onProc Proc.renew) := by
  obtain ⟨hread, hfst, hfile⟩ := s'.proc.renew_readable h.able.file1
  have hkill : s'.proc.renew.killIn = s'.proc.killIn := by
    rw [Proc.renew]
    split <;> rfl
  refine ⟨h.memory, hfst.trans h.fstat, ⟨hkill.trans h.able.killIn, hfile, hread⟩, ?_⟩
  show userCalls x.lvl s'.proc.renew.hist = _
  rw [Proc.hist_renew]
  exact h.calls

/-- The runner after it has received the result of its child. -/
theorem served_joinChild {os : List UserCall} {c : St List SendMsg ν} (hs : Able s)
    (hw : Went x os (forked x s) c) (alarm : Bool) :
    Served x os s ((joinChild s c).onProc fun p => { p with alarmReceived := alarm }) := by
  obtain ⟨ms, hwrote, hv⟩ := hw.wrote
  obtain ⟨f, hf, hnn⟩ := hs.readable
  have hsent : SentTo s.proc ms c.proc := SentTo.congr (p := (forked x s).proc)
    ⟨hwrote.file1, hwrote.file2⟩ rfl rfl
  refine ⟨rfl, rfl, ⟨hs.killIn, ?_, _, hsent.join hf, ?_⟩, hw.calls⟩
  · show (sharedFile s.proc.sendFile1 c.proc.sendFile1).isSome
    obtain ⟨g, hg⟩ := Option.isSome_iff_exists.mp hs.file1
    rw [hg]
    cases c.proc.sendFile1 with
    | none => rfl
    | some g' =>
        rw [sharedFile]
        split <;> rfl
  · exact List.forall_mem_append.mpr ⟨hnn, fun m hm => (hv m hm).1⟩

variable (call) in
/-- **The calls of a test in a process of its own.** -/
theorem tcaseRunTfunFork_calls {t : TestCode ν} (ht : t.Plain x.cfg) {tc : TCaseId}
    (hcode : testCode s.heap tc t.tfun t.iter s.now = t) (hs : Able s) (hf : s.proc.fstat = .fork)
    (hsr : forkStatusOf x.env s.sr.fstat = .fork) (hkill : x.env.kill s.now = none)
    (hd : x.cfg.sz = .w32 → 0 ≤ (testDuration x t.now).toInt) :
    ∃ tr s', tcaseRunTfunFork x call tc t.tfun t.iter s = .ok tr s' ∧
      Served x (testCalls .fork t) s s' := by
  have hready : Ready (forked x s) := by
    obtain ⟨f, hp, -⟩ := hs.readable
    exact ⟨hkill, by rw [show (forked x s).proc.getPipe = some f from hp]; rfl⟩
  obtain ⟨status, c, hw, htalk, hrun⟩ := testProcess_goes call (s := forked x s) ht hcode hready
    hs.readable hf hsr hd
  have hfork : forkChild x (testProcess x call tc t.tfun t.iter) s =
      .ok (.exited status) (joinChild s c) := by
    simp only [forkChild]
    rcases hrun with ⟨hrun, rfl⟩ | hrun
    · rw [show testProcess x call tc t.tfun t.iter
        (s.onProc fun q => { q with killIn := x.env.kill s.now }) = _ from hrun]
    · rw [show testProcess x call tc t.tfun t.iter
        (s.onProc fun q => { q with killIn := x.env.kill s.now }) = _ from hrun]
  have hjoin := served_joinChild hs hw (x.env.alarm s.now)
  -- what the child has sent can be received
  obtain ⟨ms, hwrote, hv⟩ := hw.wrote
  obtain ⟨f, hp, hnn⟩ := hs.readable
  have hsent : SentTo s.proc ms c.proc := SentTo.congr (p := (forked x s).proc)
    ⟨hwrote.file1, hwrote.file2⟩ rfl rfl
  obtain ⟨g, hg, hnng, hlast⟩ := htalk
  have hcontent : g.content = f.content ++ ms := by
    have hpipe : c.proc.getPipe = some { f with content := f.content ++ ms } := hwrote.getPipe hp
    rw [hpipe] at hg
    cases hg
    rfl
  have hreceive := receiveTestResult_of_nonNeg (x := x)
    (s := (joinChild s c).onProc fun p => { p with alarmReceived := x.env.alarm s.now })
    (hsent.join hp) (hcontent ▸ hnng) (hcontent ▸ hlast)
    (waserror (.exited status) t.tfun.signal)
  have hresult := receiveResultInfoFork_of_ok hreceive (s.heap.tcName tc) t.tfun.ttest.name t.iter
    t.tfun.allowedExitValue
  refine ⟨_, _, Eq.trans ?_ hresult, served_renew hjoin⟩
  rw [tcaseRunTfunFork, bind_of_ok _ hfork, read_bind, update_bind, read_bind]
  rfl

end

/-! ## the same process -/

/-- The setups that are called when a failure is waiting (`p`): the first one receives
it, and no other one is called. -/
def setupsCalled (p : Bool) (now : When) (fs : List (Fixture ν)) : List (Fixture ν) :=
  if p then fs.take 1 else upToFailure now fs

/-- The setups report a failure: their own or, if there are any, one that is waiting. -/
def setupsReport (p : Bool) (now : When) (fs : List (Fixture ν)) : Bool :=
  (!fs.isEmpty && p) || someFails now fs

/-- The calls of a test when a failure is waiting (`p`). -/
def testCallsAfter (mode : ForkStatus) (p : Bool) (t : TestCode ν) : List UserCall :=
  fixtureCalls .chSflst (setupsCalled p t.now t.setups) ++
    if setupsReport p t.now t.setups then []
    else .body t.tfun.ttest.name t.iter ::
      if mode = .fork ∧ fails t.body then []
      else fixtureCalls .chTflst (upToFailure t.now t.teardowns)

theorem setupsReport_false (now : When) (fs : List (Fixture ν)) :
    setupsReport false now fs = someFails now fs := by
  rw [setupsReport, Bool.and_false, Bool.false_or]

theorem testCallsAfter_false (mode : ForkStatus) (t : TestCode ν) :
    testCallsAfter mode false t = testCalls mode t := by
  rw [testCallsAfter, setupsReport_false]
  rfl

section

variable {x : Ctx} {s : St List SendMsg NestedRun}

/-- A setup in the same process. -/
theorem runSetup_served (fl : FixtureList) (tname sname : CStr) {f : Fixture NestedRun}
    (hp : PlainFun x.cfg (f.sfun.acts s.now)) (hctx : ∀ c, Limited x.cfg.maxMsg [.ctx c])
    (hs : Able s) (hf : s.proc.fstat ≠ .fork) :
    ∃ r s', runSetup x (runNested x) fl .nofork tname sname f s = .ok r s' ∧
      Served x [.fixture fl f.sfun.addr] s s' := by
  obtain ⟨s1, hsend, hw1, htalk⟩ := went_sendCtx hs.ready hctx (c := .setup) (by decide)
  obtain ⟨s2, hw2, hprot⟩ := protect_went [.fixture fl f.sfun.addr] (x := x) (s := s1)
    (f := callFixture x (runNested x) fl f) (b := fails (f.sfun.acts s.now)) (by
      intro s2 hw2
      have hnow2 : s2.now = s.now := hw2.now.trans hw1.now
      rw [← hnow2] at hp ⊢
      exact callFixture_went _ fl hp (hw2.ready (hw1.ready hs.ready)))
  have hcall : ∃ b, protect x (callFixture x (runNested x) fl f) s1 = .ok b s2 := by
    rw [hprot, hw1.fstat, if_neg hf]
    cases fails (f.sfun.acts s.now)
    · exact ⟨_, rfl⟩
    · exact ⟨_, rfl⟩
  obtain ⟨b, hcall⟩ := hcall
  obtain ⟨tr, hrcv⟩ := (hw2.talking (htalk hs.readable)).receive (x := x) tname sname 0 (-1)
  have hserved := served_renew ((hw1.trans hw2).served hs)
  rw [runSetup, if_pos rfl, bind_of_ok _ hsend, bind_of_ok _ hcall, bind_of_ok _ hrcv]
  by_cases hpass : tr.rtype ≠ .pass
  · rw [if_pos hpass]
    exact ⟨_, _, rfl, hserved⟩
  · rw [if_neg hpass]
    exact ⟨_, _, rfl, hserved⟩

/-- Setups in the same process: the first one receives a failure that is waiting. -/
theorem findSomeM_runSetup_served (fl : FixtureList) (tname sname : CStr)
    {fs : List (Fixture NestedRun)} (hp : ∀ f ∈ fs, PlainFun x.cfg (f.sfun.acts s.now))
    (hctx : ∀ c, Limited x.cfg.maxMsg [.ctx c]) (hs : Able s) (hf : s.proc.fstat ≠ .fork) :
    ∃ r s', fs.findSomeM? (runSetup x (runNested x) fl .nofork tname sname) s = .ok r s' ∧
      Served x (fixtureCalls fl (setupsCalled s.proc.pending s.now fs)) s s' := by
  induction fs generalizing s with
  | nil =>
      refine ⟨none, s, rfl, rfl, rfl, hs, ?_⟩
      rw [setupsCalled]
      cases s.proc.pending <;> exact (List.append_nil _).symm
  | cons f fs ih =>
      obtain ⟨hpf, hpfs⟩ := List.forall_mem_cons.mp hp
      obtain ⟨r1, s1, hrun, hserved⟩ := runSetup_served fl tname sname hpf hctx hs hf
      obtain ⟨hr1, hp1⟩ := runSetup_pending hs.file1 hrun
      rw [List.findSomeM?, bind_of_ok _ hrun]
      cases r1 with
      | some tr =>
          have hcalled : setupsCalled s.proc.pending s.now (f :: fs) = [f] := by
            rw [Option.isSome_some, eq_comm, Bool.or_eq_true] at hr1
            rw [setupsCalled]
            cases hpend : s.proc.pending with
            | true => rfl
            | false =>
                rw [hpend] at hr1
                rw [if_neg (by decide), upToFailure, upTo, if_pos (hr1.resolve_left (by decide))]
          rw [hcalled]
          exact ⟨some tr, s1, rfl, hserved⟩
      | none =>
          rw [Option.isSome_none, eq_comm, Bool.or_eq_false_iff] at hr1
          obtain ⟨r, s', hrest, hserved'⟩ := ih (s := s1) (by
            rw [hserved.now]
            exact hpfs) hserved.able (by rw [hserved.fstat]; exact hf)
          rw [hp1, hserved.now] at hserved'
          have hcalled : setupsCalled s.proc.pending s.now (f :: fs) =
              f :: setupsCalled false s.now fs := by
            rw [setupsCalled, hr1.1, if_neg (by decide), upToFailure, upTo,
              if_neg (Bool.eq_false_iff.mp hr1.2)]
            rfl
          rw [hcalled]
          exact ⟨r, s', hrest, hserved.trans hserved'⟩

/-- Teardowns of the runner; with the fork status `CK_FORK` none of them fails. -/
theorem srunnerRunTeardown_went (fl : FixtureList) (tc : TCaseId) (mode : ForkStatus)
    {fs : List (Fixture NestedRun)} (hfs : s.heap.lists (.fixtures fl tc) = fs)
    (hp : ∀ f ∈ fs, PlainFun x.cfg (f.sfun.acts s.now)) (hctx : ∀ c, Limited x.cfg.maxMsg [.ctx c])
    (hr : Ready s) (hf : (mode = .nofork ∧ s.proc.fstat ≠ .fork) ∨
      (mode = .fork ∧ s.proc.fstat = .fork ∧ someFails s.now fs = false)) :
    ∃ s', srunnerRunTeardown x (runNested x) fl tc mode s = .ok () s' ∧
      Went x (fixtureCalls fl (upToFailure s.now fs)) s s' := by
  have hone : ∀ f ∈ fs, ∀ s1 : St List SendMsg NestedRun,
      Ready s1 ∧ s1.proc.fstat = s.proc.fstat ∧ s1.now = s.now →
        ∃ s', (Ready s' ∧ s'.proc.fstat = s.proc.fstat ∧ s'.now = s.now) ∧
          Went x [.fixture fl f.sfun.addr] s1 s' ∧ runTeardown x (runNested x) fl mode f s1 =
            if fails (f.sfun.acts s.now) then .ok (some ()) s' else .ok none s' := by
    rintro f hmem s1 ⟨hr1, hf1, hnow1⟩
    have hpf : PlainFun x.cfg (f.sfun.acts s1.now) := hnow1 ▸ hp f hmem
    rcases hf with ⟨rfl, hne⟩ | ⟨rfl, hfork, hnone⟩
    · obtain ⟨s', hw, hrun⟩ := runTeardown_went (runNested x) fl hpf hctx hr1
      have hne1 : s1.proc.fstat ≠ .fork := hf1 ▸ hne
      rw [if_neg hne1, hnow1] at hrun
      exact ⟨s', ⟨hw.ready hr1, hw.fstat.trans hf1, hw.now.trans hnow1⟩, hw, hrun⟩
    · have hpass : fails (f.sfun.acts s.now) = false := by
        rw [someFails, List.any_eq_false] at hnone
        exact Bool.eq_false_iff.mpr (hnone f hmem)
      obtain ⟨s2, hsend, hw2, -⟩ := went_sendCtx hr1 hctx (c := .teardown) (by decide)
      have hnow2 : s2.now = s.now := hw2.now.trans hnow1
      obtain ⟨s', hw', hcall⟩ := callFixture_went (runNested x) fl (f := f) (s := s2)
        (by rw [hw2.now]; exact hpf) (hw2.ready hr1)
      have hw := hw2.trans hw'
      rw [hnow2, hpass] at hcall
      refine ⟨s', ⟨hw.ready hr1, hw.fstat.trans hf1, hw.now.trans hnow1⟩, hw, ?_⟩
      have hunprotected : unprotected (callFixture x (runNested x) fl f) s2 = .ok () s' :=
        bind_of_ok _ hcall
      rw [hpass, runTeardown, bind_of_ok _ hsend, if_neg (by decide), bind_of_ok _ hunprotected]
      rfl
  obtain ⟨s', -, hw, hwalk⟩ := findSomeM_upTo (composes_went (x := x))
    (I := fun s1 : St List SendMsg NestedRun =>
      Ready s1 ∧ s1.proc.fstat = s.proc.fstat ∧ s1.now = s.now)
    (fun s' => .ok (some ()) s') (by simp)
    (p := fun f : Fixture NestedRun => fails (f.sfun.acts s.now))
    (g := fun f => .fixture fl f.sfun.addr) hone ⟨hr, rfl, rfl⟩
  refine ⟨s', ?_, hw⟩
  rw [srunnerRunTeardown, bind_apply, forList_of_lists hfs, hwalk]
  cases fs.any fun f => fails (f.sfun.acts s.now) <;> rfl

/-- After a test function was called, a result can be received. -/
theorem callTest_talking {s' : St List SendMsg NestedRun} {tfun : TF NestedRun} {i : Int} {b : Bool}
    (h1 : s.proc.sendFile1.isSome) (hs : s.proc.Readable)
    (h : callTest x (runNested x) tfun i s = .ok b s') : s'.proc.Talking := by
  obtain ⟨_, s1, hctx, h⟩ := bind_eq_ok.mp h
  obtain ⟨_, s2, hloc, h⟩ := bind_eq_ok.mp h
  rw [update_bind, read_bind] at h
  have htalk1 : s1.proc.Talking := hs.talking (by decide) hctx
  have htalk2 : s2.proc.Talking :=
    htalk1.send tfun.ttest.loc.nonNeg_msg (fun he => nomatch he) hloc
  have hfile2 : s2.proc.sendFile1.isSome := sendMsg_file1 (sendMsg_file1 h1 hctx) hloc
  exact runFun_talking (s := s2.onProc (Proc.observe x.lvl
    (.body tfun.ttest.name i))) hfile2 htalk2 h

/-- **The calls of a test in the same process.** -/
theorem tcaseRunTfunNofork_calls {t : TestCode NestedRun} (ht : t.Plain x.cfg) {tc : TCaseId}
    (hcode : testCode s.heap tc t.tfun t.iter s.now = t) (hs : Able s)
    (hf : s.proc.fstat ≠ .fork) (hsr : forkStatusOf x.env s.sr.fstat = .nofork) :
    ∃ tr s', tcaseRunTfunNofork x (runNested x) tc t.tfun t.iter s = .ok tr s' ∧
      Served x (testCallsAfter .nofork s.proc.pending t) s s' := by
  have hset : s.heap.lists (.fixtures .chSflst tc) = t.setups := congrArg TestCode.setups hcode
  have htear : s.heap.lists (.fixtures .chTflst tc) = t.teardowns :=
    congrArg TestCode.teardowns hcode
  have hnow : s.now = t.now := congrArg TestCode.now hcode
  obtain ⟨r, s1, hwalk, hserved1⟩ := findSomeM_runSetup_served .chSflst (s.heap.tcName tc)
    (.lit "checked_setup") (hnow ▸ ht.setups) ht.ctx hs hf
  have hr := (findSomeM_runSetup_ok t.setups hs.file1 hwalk).1
  have hreport : r.isSome = setupsReport s.proc.pending t.now t.setups := by
    rw [hr, hnow]
    rfl
  have hsetup : tcaseRunCheckedSetup x (runNested x) tc s = .ok r s1 := by
    rw [tcaseRunCheckedSetup, srunnerForkStatus, read_bind, read_bind, srunnerRunSetup, hsr,
      if_neg (by decide)]
    exact (forList_of_lists (x := x) hset _).trans hwalk
  rw [hnow] at hserved1
  rw [tcaseRunTfunNofork, bind_of_ok _ hsetup, testCallsAfter, ← hreport]
  cases r with
  | some tr =>
      refine ⟨tr, s1, rfl, ?_⟩
      rw [Option.isSome_some, if_pos rfl, List.append_nil]
      exact hserved1
  | none =>
      have hnow1 : s1.now = t.now := hserved1.now.trans hnow
      obtain ⟨s2, hw2, hprot⟩ := protect_went [.body t.tfun.ttest.name t.iter] (x := x) (s := s1)
        (f := callTest x (runNested x) t.tfun t.iter) (b := fails t.body) fun s2 hw2 =>
          callTest_went _ ht (hw2.ready hserved1.able.ready) (hw2.now.trans hnow1)
      have hne1 : s1.proc.fstat ≠ .fork := hserved1.fstat ▸ hf
      have hcall : ∃ b, protect x (callTest x (runNested x) t.tfun t.iter) s1 = .ok b s2 := by
        rw [hprot, if_neg hne1]
        cases fails t.body
        · exact ⟨_, rfl⟩
        · exact ⟨_, rfl⟩
      obtain ⟨b, hcall⟩ := hcall
      have hserved2 := hserved1.trans (hw2.served hserved1.able)
      have hnow2 : s2.now = t.now := hserved2.now.trans hnow
      have htear2 : s2.heap.lists (.fixtures .chTflst tc) = t.teardowns := by
        rw [hserved2.heap]
        exact htear
      obtain ⟨s3, htears, hwent3⟩ := srunnerRunTeardown_went (x := x) .chTflst tc .nofork htear2
        (hnow2 ▸ ht.teardowns) ht.ctx hserved2.able.ready
          (.inl ⟨rfl, by rw [hserved2.fstat]; exact hf⟩)
      have htalk2 : s2.proc.Talking := callTest_talking
        (s := s1.onProc fun p => { p with errorJmpBuffer := some x.lvl }) hserved1.able.file1
        hserved1.able.readable hcall
      obtain ⟨tr, hrcv⟩ := (hwent3.talking htalk2).receive (x := x) (s3.heap.tcName tc)
        t.tfun.ttest.name t.iter (testDuration x s3.now)
      refine ⟨tr, s3.onProc Proc.renew, ?_, served_renew ?_⟩
      · show (do
          let _ ← protect x (callTest x (runNested x) t.tfun t.iter)
          tcaseRunCheckedTeardown x (runNested x) tc
          let name ← read fun s => s.heap.tcName tc
          let now ← read fun s => s.now
          receiveResultInfoNofork x name t.tfun.ttest.name t.iter (testDuration x now) :
            RunM List SendMsg NestedRun TestResult) s1 = _
        rw [bind_of_ok _ hcall, tcaseRunCheckedTeardown, bind_of_ok _ htears, read_bind, read_bind]
        exact hrcv
      · have hcalls := hserved2.trans (hwent3.served hserved2.able)
        rw [hnow2] at hcalls
        simpa [List.append_assoc] using hcalls

/-- The calls of a test in either mode.  No failure is waiting when a process is made
for it. -/
theorem tcaseRunTfun_calls {t : TestCode NestedRun} (ht : t.Plain x.cfg) {tc : TCaseId}
    {mode : ForkStatus} (hmode : (mode = .fork ∧ s.proc.pending = false) ∨ mode = .nofork)
    (hcode : testCode s.heap tc t.tfun t.iter s.now = t) (hs : Able s) (hf : s.proc.fstat = mode)
    (hsr : forkStatusOf x.env s.sr.fstat = mode) (hkill : x.env.kill s.now = none)
    (hd : mode = .fork → x.cfg.sz = .w32 → 0 ≤ (testDuration x t.now).toInt) :
    ∃ tr s', tcaseRunTfun x (runNested x) tc t.tfun t.iter s = .ok tr s' ∧
      Served x (testCallsAfter mode s.proc.pending t) s s' := by
  rw [tcaseRunTfun, srunnerForkStatus, read_bind, hsr]
  rcases hmode with ⟨rfl, hnone⟩ | rfl
  · rw [hnone, testCallsAfter_false]
    exact tcaseRunTfunFork_calls _ ht hcode hs hf hsr hkill (hd rfl)
  · exact tcaseRunTfunNofork_calls ht hcode hs (by rw [hf]; decide) hsr

end

end LibCheck
