import LibCheck.Nested
import LibCheck.Receiver
import LibCheck.Report

/-!
# LibCheck.Verdict

What becomes of an assertion that failed in a child process, whatever its
functions do: they may mark, exit, raise signals, run other runners, or be
killed from outside.

* `ChildInv` — as long as no assertion has failed, the child has its own
  file, its fork status is `CK_FORK`, and it has sent its first context.
* `ChildStop` — where it stops, no assertion has failed, or one has: then the child is killed,
  or it exits with `1` and its failure is in the file, or `ppack` refuses a message of the
  assertion and the child exits with `2`.
* `assertion_recorded_iff` — the failure is recorded unless the test is
  registered with the exit value or the signal that the child ends with.
-/

namespace LibCheck

open Prog

/-- The failing assertion. -/
def Obs.assertFailed? : Obs → Option Assertion
  | .assertFailed a => some a
  | _ => none

/-- The assertions that have failed, in the run at nesting level `lvl`. -/
def asserts (lvl : Nat) (hist : List (Nat × Obs)) : List Assertion :=
  shown Obs.assertFailed? lvl hist

/-- The failure that `_ck_assert_failed` sends. -/
def Assertion.failMsg (cfg : Config) (a : Assertion) : SendMsg :=
  .fail (some (failureText cfg a.expr a.msg))

/-- Both messages of the assertion are within the limit. -/
def Assertion.Fits (cfg : Config) (a : Assertion) : Prop :=
  Limited cfg.maxMsg [a.loc.msg, a.failMsg cfg]

instance (cfg : Config) (a : Assertion) : Decidable (a.Fits cfg) :=
  inferInstanceAs (Decidable (Limited ..))

/-- The status with which `_ck_assert_failed` ends a child that nobody kills: `_exit(1)`, or that
of `eprintf` where `ppack` refuses a message. -/
def Assertion.exitStatus (cfg : Config) (a : Assertion) : UInt8 := if a.Fits cfg then 1 else 2

/-! ## the child -/

/-- What a child has sent: first a context, and nothing that the receiver
cannot represent. -/
def ChildSent (ms : List SendMsg) : Prop :=
  ms.head? = some (.ctx .setup) ∧ ∀ m ∈ ms, m.NonNeg ∧ m ≠ .ctx .invalid

theorem ChildSent.lastctx {ms : List SendMsg} (h : ChildSent ms) (r : RcvMsg) :
    (received r ms).lastctx ≠ .invalid := by
  obtain ⟨m, rest, rfl⟩ : ∃ m rest, ms = m :: rest := by
    cases ms with
    | nil => exact nomatch h.1
    | cons m rest => exact ⟨m, rest, rfl⟩
  obtain rfl : m = .ctx .setup := Option.some.inj h.1
  refine received_lastctx_ne_invalid (r := rcvmsgUpdateCtx r .setup) ?_
    fun q hq => (h.2 q (List.mem_cons_of_mem _ hq)).2
  rw [rcvmsgUpdateCtx_lastctx]
  decide

theorem ChildSent.append {ms : List SendMsg} {m : SendMsg} (h : ChildSent ms) (hnn : m.NonNeg)
    (hne : m ≠ .ctx .invalid) : ChildSent (ms ++ [m]) := by
  refine ⟨?_, List.forall_mem_append.mpr ⟨h.2, List.forall_mem_singleton.mpr ⟨hnn, hne⟩⟩⟩
  rw [List.head?_append, h.1]
  rfl

theorem SentTo.fwrite {p q : Proc SendMsg} {ms : List SendMsg} (h : SentTo p ms q) (m : SendMsg) :
    SentTo p (ms ++ [m]) (q.fwrite [m]) := by
  obtain ⟨h1, h2⟩ := h
  cases e2 : p.sendFile2 <;> cases e1 : p.sendFile1 <;>
    simp only [Proc.fwrite, e1, e2, Option.map_none, Option.map_some] at h1 h2 <;>
    simp only [SentTo, Proc.fwrite, e1, e2, h1, h2, List.append_assoc, Option.map_none,
      Option.map_some, and_self]

section

variable (x : Ctx) (p : Proc SendMsg) (m : Heap List NestedRun × SRunner List × When)
  (as : List Assertion)

/-- No assertion of the child has failed. -/
structure ChildInv (s : St List SendMsg NestedRun) : Prop where
  memory : s.memory = m
  fstat : s.proc.fstat = .fork
  asserts : asserts x.lvl s.proc.hist = as
  sent : ∃ ms, ChildSent ms ∧ SentTo p ms s.proc

/-- How an assertion ends a child that has sent the messages `ms`: the child is killed, or
exits with the status of the assertion. -/
def Assertion.Ends (cfg : Config) (a : Assertion) (e : Stop) (ms : List SendMsg) : Prop :=
  (∃ sig, e = .signaled sig) ∨
    e = .exited (a.exitStatus cfg) ∧ (a.Fits cfg → ∃ t, .fail t ∈ ms)

/-- Where a child stops, no assertion has failed, or one has and ends it. -/
def ChildStop (e : Stop) (s : St List SendMsg NestedRun) : Prop :=
  asserts x.lvl s.proc.hist = as ∨
    ∃ a ms, asserts x.lvl s.proc.hist = as ++ [a] ∧ ChildSent ms ∧ SentTo p ms s.proc ∧
      a.Ends x.cfg e ms

end

section

variable {x : Ctx} {p : Proc SendMsg} {m : Heap List NestedRun × SRunner List × When}
  {as : List Assertion}

/-- The programs of a child. -/
abbrev InChild (x : Ctx) (p : Proc SendMsg) (m : Heap List NestedRun × SRunner List × When)
    (as : List Assertion) (y : RunM List SendMsg NestedRun α) : Prop :=
  Maintains (ChildInv x p m as) (ChildStop x p as) y

theorem inChild_throw (e : Stop) :
    InChild x p m as (throw e : RunM List SendMsg NestedRun α) :=
  Maintains.throw fun _ hs => .inl hs.asserts

theorem inChild_killPoint : InChild x p m as killPoint := by
  refine Maintains.bind (Maintains.read _) fun k => ?_
  match k with
  | none => exact Maintains.pure ()
  | some (0, sig) => exact inChild_throw _
  | some (n + 1, sig) =>
      exact Maintains.update fun _ hs => ⟨hs.memory, hs.fstat, hs.asserts, hs.sent⟩

theorem inChild_sendMsg {q : SendMsg} (hnn : q.NonNeg) (hne : q ≠ .ctx .invalid) :
    InChild x p m as (sendMsg x q) := by
  intro s hs
  rcases sendMsg_apply x q s with ⟨n, sig, -, he⟩ | ⟨-, he⟩ | ⟨data, hq, -, he⟩
  · rw [he]
    exact .inl hs.asserts
  · rw [he]
    refine .inl ?_
    show asserts x.lvl s.proc.granted.hist = as
    rw [Proc.granted_eq]
    exact hs.asserts
  · rw [he, wire_ppack_ok hq]
    obtain ⟨ms, hms, hsent⟩ := hs.sent
    refine ⟨hs.memory, ?_, ?_, ms ++ [q], hms.append hnn hne, ?_⟩
    · show (s.proc.granted.fwrite [q]).fstat = .fork
      rw [Proc.fwrite_eq, Proc.granted_eq]
      exact hs.fstat
    · show asserts x.lvl (s.proc.granted.fwrite [q]).hist = as
      rw [Proc.hist_fwrite, Proc.granted_eq]
      exact hs.asserts
    · show SentTo p (ms ++ [q]) (s.proc.granted.fwrite [q])
      refine SentTo.fwrite ?_ q
      rw [Proc.granted_eq]
      exact hsent

theorem inChild_observe {o : Obs} (ho : o.isUser) (hne : ∀ a, o ≠ .assertFailed a) :
    InChild x p m as (update (St.onProc (Proc.observe x.lvl o))) := by
  refine Maintains.update fun s hs => ⟨hs.memory, hs.fstat, ?_, hs.sent⟩
  show asserts x.lvl (s.proc.hist ++ [(x.lvl, o)]) = as
  rw [asserts, shown_append, show shown _ x.lvl s.proc.hist = as from hs.asserts]
  cases o <;> first | exact List.append_nil _ | exact absurd rfl (hne _)

/-- A child in which the assertion `a` is failing, and which has sent its first messages. -/
structure Failing (x : Ctx) (p : Proc SendMsg) (as : List Assertion) (a : Assertion)
    (ms : List SendMsg) (s : St List SendMsg NestedRun) : Prop where
  fstat : s.proc.fstat = .fork
  asserts : asserts x.lvl s.proc.hist = as ++ [a]
  sent : ChildSent ms
  files : SentTo p ms s.proc

/-- The assertion sends a message, or is stopped at it: the child is killed, or exits with `2`
since the message is not within the limit. -/
theorem Failing.sendMsg {a : Assertion} {ms : List SendMsg} {s : St List SendMsg NestedRun}
    (h : Failing x p as a ms s) (hp : p.getPipe.isSome) {q : SendMsg} (hnn : q.NonNeg)
    (hne : q ≠ .ctx .invalid) :
    (∃ e s', sendMsg x q s = .error e s' ∧ Failing x p as a ms s' ∧
        ((∃ sig, e = .signaled sig) ∨ e = .exited 2 ∧ ¬ Limited x.cfg.maxMsg [q])) ∨
      ∃ s', sendMsg x q s = .ok () s' ∧ Failing x p as a (ms ++ [q]) s' ∧
        Limited x.cfg.maxMsg [q] := by
  rcases sendMsg_apply x q s with ⟨n, sig, -, he⟩ | ⟨hrefused, he⟩ | ⟨data, hq, -, he⟩
  · exact .inl ⟨_, s, he, h, .inl ⟨sig, rfl⟩⟩
  · refine .inl ⟨_, _, he, ?_, .inr ⟨rfl, fun hlim => ?_⟩⟩
    · refine ⟨?_, ?_, h.sent, ?_⟩
      · exact (congrArg Proc.fstat s.proc.granted_eq).trans h.fstat
      · exact (congrArg (fun q => LibCheck.asserts x.lvl q.hist) s.proc.granted_eq).trans h.asserts
      · show SentTo p ms s.proc.granted
        rw [Proc.granted_eq]
        exact h.files
    · obtain ⟨e, hrefused⟩ := hrefused (h.files.isSome_getPipe hp)
      obtain ⟨data, hdata⟩ := (wire_ppack_ok_iff hnn).mpr hlim
      cases hrefused.symm.trans hdata
  · refine .inr ⟨_, he, ?_, (wire_ppack_ok_iff hnn).mp ⟨data, hq⟩⟩
    rw [wire_ppack_ok hq]
    refine ⟨?_, ?_, h.sent.append hnn hne, ?_⟩
    · show (s.proc.granted.fwrite [q]).fstat = .fork
      rw [Proc.fwrite_eq, Proc.granted_eq]
      exact h.fstat
    · show LibCheck.asserts x.lvl (s.proc.granted.fwrite [q]).hist = as ++ [a]
      rw [Proc.hist_fwrite, Proc.granted_eq]
      exact h.asserts
    · show SentTo p (ms ++ [q]) (s.proc.granted.fwrite [q])
      refine SentTo.fwrite ?_ q
      rw [Proc.granted_eq]
      exact h.files

theorem Failing.stop {a : Assertion} {ms : List SendMsg} {s : St List SendMsg NestedRun}
    (h : Failing x p as a ms s) {e : Stop} (he : a.Ends x.cfg e ms) : ChildStop x p as e s :=
  .inr ⟨a, ms, h.asserts, h.sent, h.files, he⟩

theorem Assertion.fits_iff {cfg : Config} {a : Assertion} : a.Fits cfg ↔
    Limited cfg.maxMsg [a.loc.msg] ∧ Limited cfg.maxMsg [a.failMsg cfg] := by
  simp only [Fits, Limited, List.forall_mem_cons, List.not_mem_nil, false_implies, implies_true,
    and_true]

/-- A failing assertion ends the child. -/
theorem inChild_ckAssertFailed (hp : p.getPipe.isSome) (a : Assertion) :
    InChild x p m as (ckAssertFailed x a.loc a.expr a.msg) := by
  intro s hs
  obtain ⟨ms, hms, hsent⟩ := hs.sent
  have hstart : Failing x p as a ms (s.onProc (Proc.observe x.lvl (.assertFailed a))) := by
    refine ⟨hs.fstat, ?_, hms, hsent⟩
    show asserts x.lvl (s.proc.hist ++ [(x.lvl, .assertFailed a)]) = as ++ [a]
    rw [asserts, shown_append, show shown _ x.lvl s.proc.hist = as from hs.asserts]
    simp [Obs.assertFailed?]
  rw [ckAssertFailed, update_bind]
  rcases hstart.sendMsg hp a.loc.nonNeg_msg (by rintro ⟨⟩) with
    ⟨e, s', he, hs', hend⟩ | ⟨s1, he, hs1, hloc⟩
  · -- the place is not sent
    have he : sendLocInfo x a.loc (s.onProc (Proc.observe x.lvl (.assertFailed a))) =
      .error e s' := he
    rw [bind_of_error _ he]
    refine hs'.stop (hend.imp_right ?_)
    rintro ⟨rfl, hlim⟩
    have hfits : ¬ a.Fits x.cfg := fun h => hlim (Assertion.fits_iff.mp h).1
    exact ⟨by rw [Assertion.exitStatus, if_neg hfits], fun h => absurd h hfits⟩
  have he : sendLocInfo x a.loc (s.onProc (Proc.observe x.lvl (.assertFailed a))) = .ok () s1 := he
  rw [bind_of_ok _ he]
  rcases hs1.sendMsg hp (q := a.failMsg x.cfg) trivial (by rintro ⟨⟩) with
    ⟨e, s', he, hs', hend⟩ | ⟨s2, he, hs2, hfail⟩
  · -- the failure is not sent
    have he : sendFailureInfo x (failureText x.cfg a.expr a.msg) s1 = .error e s' := he
    rw [bind_of_error _ he]
    refine hs'.stop (hend.imp_right ?_)
    rintro ⟨rfl, hlim⟩
    have hfits : ¬ a.Fits x.cfg := fun h => hlim (Assertion.fits_iff.mp h).2
    exact ⟨by rw [Assertion.exitStatus, if_neg hfits], fun h => absurd h hfits⟩
  · -- once the failure is sent, the process exits
    have he : sendFailureInfo x (failureText x.cfg a.expr a.msg) s1 = .ok () s2 := he
    rw [bind_of_ok _ he, read_bind, if_pos (decide_eq_true hs2.fstat)]
    have hfits : a.Fits x.cfg := Assertion.fits_iff.mpr ⟨hloc, hfail⟩
    refine hs2.stop (.inr ⟨by rw [Assertion.exitStatus, if_pos hfits], fun _ => ?_⟩)
    exact ⟨_, List.mem_append_right _ List.mem_cons_self⟩

section

variable (h1 : p.sendFile1.isSome)
include h1

/-- A run inside the child, as far as the child is concerned. -/
theorem inChild_runNested (c : NestedRun) : InChild x p m as (runNested x c) := by
  intro s hs
  have hobs := runNested_shown x Obs.assertFailed? as c s hs.asserts
  cases hres : (runNested x c s : EStateM.Result Stop (St List SendMsg NestedRun) Unit) with
  | error e s' =>
      rw [hres] at hobs
      exact .inl hobs.1
  | ok a s' =>
      rw [hres] at hobs
      obtain ⟨ms, hms, hf1, hf2⟩ := hs.sent
      obtain ⟨f, hf⟩ : ∃ f, s.proc.sendFile1 = some f := by
        obtain ⟨g, hg⟩ := Option.isSome_iff_exists.mp h1
        rw [hf1]
        simp only [Proc.fwrite]
        split
        · exact ⟨g, hg⟩
        · exact ⟨_, by rw [hg]; rfl⟩
      obtain ⟨hnone, hf1', hf2', hfst⟩ := runNested_ok hf hres
      exact ⟨((keeps_runNested x c).of_ok hres).trans hs.memory, hfst, hobs,
        ms, hms, (hf1'.trans hf.symm).trans hf1, (hf2'.trans hnone.symm).trans hf2⟩

theorem inChild_runFun (acts : List (Act NestedRun)) :
    InChild x p m as (runFun x (runNested x) acts) := by
  induction acts with
  | nil => exact Maintains.pure _
  | cons act acts ih =>
      cases act with
      | markPoint loc =>
          exact Maintains.bind (inChild_sendMsg loc.nonNeg_msg fun he => nomatch he) fun _ => ih
      | assertFailed loc expr msg =>
          exact Maintains.bind (inChild_ckAssertFailed (Proc.isSome_getPipe h1) ⟨loc, expr, msg⟩)
            fun _ => Maintains.pure _
      | exit status => exact Maintains.bind inChild_killPoint fun _ => inChild_throw _
      | raise sig => exact inChild_throw _
      | call c => exact Maintains.bind (inChild_runNested h1 c) fun _ => ih

theorem inChild_callFixture (fl : FixtureList) (f : Fixture NestedRun) :
    InChild x p m as (callFixture x (runNested x) fl f) :=
  Maintains.bind (inChild_observe rfl fun _ he => nomatch he) fun _ =>
    Maintains.bind (Maintains.read _) fun _ => inChild_runFun h1 _

theorem inChild_callTest (tfun : TF NestedRun) (i : Int) :
    InChild x p m as (callTest x (runNested x) tfun i) :=
  Maintains.bind (inChild_sendMsg trivial (by decide)) fun _ =>
    Maintains.bind (inChild_sendMsg tfun.ttest.loc.nonNeg_msg fun he => nomatch he) fun _ =>
      Maintains.bind (inChild_observe rfl fun _ he => nomatch he) fun _ =>
        Maintains.bind (Maintains.read _) fun _ => inChild_runFun h1 _

omit h1 in
theorem inChild_unprotected {f : RunM List SendMsg NestedRun Bool} (h : InChild x p m as f) :
    InChild x p m as (unprotected f) :=
  Maintains.bind h fun _ => Maintains.ite (inChild_throw _) (Maintains.pure _)

theorem inChild_runSetup (fl : FixtureList) (tname sname : CStr) (f : Fixture NestedRun) :
    InChild x p m as (runSetup x (runNested x) fl .fork tname sname f) := by
  rw [runSetup, if_neg (by decide)]
  exact Maintains.bind (inChild_unprotected (inChild_callFixture h1 fl f)) fun _ => Maintains.pure _

theorem inChild_tcaseRunCheckedTeardown (tc : TCaseId) :
    InChild x p m as (tcaseRunCheckedTeardown x (runNested x) tc) := by
  refine Maintains.bind (fun s hs => Maintains.findSomeM (fun f _ => ?_) s hs) fun _ =>
    Maintains.pure _
  refine Maintains.bind (inChild_sendMsg trivial (by decide)) fun _ => ?_
  rw [if_pos rfl]
  exact Maintains.bind (Maintains.bind (Maintains.update fun _ hs =>
      ⟨hs.memory, hs.fstat, hs.asserts, hs.sent⟩) fun _ => inChild_callFixture h1 _ f) fun _ =>
    Maintains.ite (Maintains.pure _) (Maintains.pure _)

omit h1 in
/-- The last part of a child: a state to go on from becomes one in which still
no assertion has failed. -/
theorem inChild_bind_last {y : RunM List SendMsg NestedRun α}
    {f : α → RunM List SendMsg NestedRun Unit} (hy : InChild x p m as y)
    (hf : ∀ a s, ChildInv x p m as s → match f a s with
      | .ok _ s' => asserts x.lvl s'.proc.hist = as
      | .error e s' => ChildStop x p as e s') :
    ∀ s, ChildInv x p m as s → match (y >>= f) s with
      | .ok _ s' => asserts x.lvl s'.proc.hist = as
      | .error e s' => ChildStop x p as e s' := by
  intro s hs
  have h := hy s hs
  rw [bind_apply]
  cases hys : y s with
  | ok a s' =>
      rw [hys] at h
      exact hf a s' h
  | error e s' =>
      rw [hys] at h
      exact h

end

end

/-- Sending records nothing. -/
theorem msgsInv_hist (x : Ctx) (h : List (Nat × Obs)) :
    MsgsInv x (fun _ => False) (fun m => m.2.2 = h) (fun m => m.2.2 = h) where
  stop _ hp := hp
  write p m hp _ := (Proc.hist_fwrite [m] p).trans hp
  renew p hp _ := (Proc.hist_renew p).trans hp
  observe _ _ ho _ := ho.elim
  join _ _ _ hc := hc

/-- No assertion has failed when a child has announced its setups. -/
theorem childInv_sendCtx {x : Ctx} {s s' : St List SendMsg NestedRun} (hf : s.proc.fstat = .fork)
    (h : sendCtxInfo x .setup s = .ok () s') :
    ChildInv x s.proc s.memory (asserts x.lvl s.proc.hist) s' := by
  rcases sendMsg_apply x (.ctx .setup) s with ⟨n, sig, -, he⟩ | ⟨-, he⟩ | ⟨data, hq, -, he⟩
  · cases he.symm.trans h
  · cases he.symm.trans h
  · rw [wire_ppack_ok hq] at he
    cases he.symm.trans h
    refine ⟨rfl, ?_, ?_, [.ctx .setup], ⟨rfl, ?_⟩, ?_⟩
    · show (s.proc.granted.fwrite [.ctx .setup]).fstat = .fork
      rw [Proc.fwrite_eq, Proc.granted_eq]
      exact hf
    · show asserts x.lvl (s.proc.granted.fwrite [.ctx .setup]).hist = _
      rw [Proc.hist_fwrite, Proc.granted_eq]
    · exact List.forall_mem_singleton.mpr ⟨trivial, by decide⟩
    · have hnil : SentTo s.proc [] s.proc.granted := by
        rw [Proc.granted_eq]
        exact ⟨(Wrote.refl s).file1, (Wrote.refl s).file2⟩
      exact hnil.fwrite (.ctx .setup)

/-- A child begins with the context of its setups. -/
theorem testProcess_apply {x : Ctx} {s : St List SendMsg NestedRun}
    (hsr : forkStatusOf x.env s.sr.fstat = .fork) (tc : TCaseId) (tfun : TF NestedRun) (i : Int) :
    testProcess x (runNested x) tc tfun i s = (do
      sendCtxInfo x .setup
      let _ ← forList x (.fixtures .chSflst tc)
        (runSetup x (runNested x) .chSflst .fork (s.heap.tcName tc) (.lit "checked_setup"))
      unprotected (callTest x (runNested x) tfun i)
      tcaseRunCheckedTeardown x (runNested x) tc
      let now ← read fun s => s.now
      sendDurationInfo x (testDuration x now)
      killPoint : RunM List SendMsg NestedRun Unit) s := by
  have hsetup : tcaseRunCheckedSetup x (runNested x) tc s = (do
      sendCtxInfo x .setup
      forList x (.fixtures .chSflst tc)
        (runSetup x (runNested x) .chSflst .fork (s.heap.tcName tc) (.lit "checked_setup")) :
          RunM List SendMsg NestedRun (Option TestResult)) s := by
    rw [tcaseRunCheckedSetup, srunnerForkStatus, read_bind, read_bind, srunnerRunSetup, hsr,
      if_pos rfl]
  rw [testProcess, bind_congr_left _ hsetup, bind_assoc]

/-- A whole child process. -/
theorem testProcess_child {x : Ctx} {s : St List SendMsg NestedRun}
    (h1 : s.proc.sendFile1.isSome) (hf : s.proc.fstat = .fork)
    (hsr : forkStatusOf x.env s.sr.fstat = .fork) (tc : TCaseId) (tfun : TF NestedRun) (i : Int) :
    match testProcess x (runNested x) tc tfun i s with
    | .ok _ s' => asserts x.lvl s'.proc.hist = asserts x.lvl s.proc.hist
    | .error e s' => ChildStop x s.proc (asserts x.lvl s.proc.hist) e s' := by
  -- the duration is sent when no assertion can fail any more
  have hlast : ∀ (u : Unit) (t : St List SendMsg NestedRun),
      ChildInv x s.proc s.memory (asserts x.lvl s.proc.hist) t → match (do
        let now ← read fun s => s.now
        sendDurationInfo x (testDuration x now)
        killPoint : RunM List SendMsg NestedRun Unit) t with
      | .ok _ s' => asserts x.lvl s'.proc.hist = asserts x.lvl s.proc.hist
      | .error e s' => ChildStop x s.proc (asserts x.lvl s.proc.hist) e s' := by
    intro _ t ht
    have hinv := msgsInv_hist x t.proc.hist
    have hkeep : Maintains (fun s => s.proc.hist = t.proc.hist)
        (fun e s => s.proc.hist = t.proc.hist ∧ e.Real) (do
          let now ← read fun s => s.now
          sendDurationInfo x (testDuration x now)
          killPoint : RunM List SendMsg NestedRun Unit) :=
      Maintains.bind (Maintains.read _) fun now =>
        Maintains.bind (hinv.sendMsg (.duration (testDuration x now))) fun _ => hinv.killPoint
    cases hres : (do
        let now ← read fun s => s.now
        sendDurationInfo x (testDuration x now)
        killPoint : RunM List SendMsg NestedRun Unit) t with
    | ok u t' => exact (congrArg (asserts x.lvl) (hkeep.of_ok rfl hres)).trans ht.asserts
    | error e t' =>
        exact .inl ((congrArg (asserts x.lvl) (hkeep.of_error rfl hres).1).trans ht.asserts)
  rw [testProcess_apply hsr]
  rcases sendMsg_apply x (.ctx .setup) s with ⟨n, sig, -, he⟩ | ⟨-, he⟩ | ⟨data, -, -, he⟩
  · rw [sendCtxInfo, bind_of_error _ he]
    exact .inl rfl
  · rw [sendCtxInfo, bind_of_error _ he]
    refine .inl ?_
    show asserts x.lvl s.proc.granted.hist = _
    rw [Proc.granted_eq]
  · have hinv := childInv_sendCtx hf he
    rw [sendCtxInfo, bind_of_ok _ he]
    refine inChild_bind_last (fun t ht => Maintains.findSomeM (fun f _ =>
      inChild_runSetup h1 _ _ _ f) t ht) (fun _ t ht => ?_) _ hinv
    refine inChild_bind_last (inChild_unprotected (inChild_callTest h1 tfun i)) (fun _ t ht => ?_)
      t ht
    exact inChild_bind_last (inChild_tcaseRunCheckedTeardown h1 tc) hlast t ht

/-! ## the parent -/

/-- The state a child starts in. -/
def forked {L : Type → Type} {β ν : Type} (x : Ctx) (s : St L β ν) : St L β ν :=
  s.onProc fun q => { q with killIn := x.env.kill s.now }

/-- The child of the test executes `_ck_assert_failed` with `a`. -/
def AssertFailedInChild {L : Type → Type} {β : Type} [Lists L] [Wire β] (x : Ctx) (tc : TCaseId)
    (tfun : TF NestedRun) (i : Int) (s : St L β NestedRun) (a : Assertion) : Prop :=
  asserts x.lvl (endState (testProcess x (runNested x) tc tfun i (forked x s))).proc.hist =
    asserts x.lvl s.proc.hist ++ [a]

/-- The signal that a program is stopped by. -/
def signalOf {σ α : Type} : EStateM.Result Stop σ α → Option Signal
  | .error (.signaled sig) _ => some sig
  | _ => none

/-- The signal that kills the child of the test. -/
def killedBy {L : Type → Type} {β : Type} [Lists L] [Wire β] (x : Ctx) (tc : TCaseId)
    (tfun : TF NestedRun) (i : Int) (s : St L β NestedRun) : Option Signal :=
  signalOf (testProcess x (runNested x) tc tfun i (forked x s))

/-- The wait status of a child that is killed while the assertion fails, or ended by it. -/
def Assertion.status (cfg : Config) (a : Assertion) : (killed : Option Signal) → WaitStatus
  | some sig => .signaled sig
  | none => .exited (a.exitStatus cfg)

/-- The test expects the wait status. -/
def WaitStatus.Expected (alarm : Bool) (signal : Int) (allowed : Int8) : WaitStatus → Prop
  | .signaled sig => signal = sig.1 ∧ alarm = false
  | .exited code => signal = 0 ∧ code.toInt8 = allowed

/-- A result is a pass if the wait status is the expected one, and counts as failed otherwise. -/
theorem setForkInfo_counts_iff (cfg : Config) (alarm : Bool) (tr : TestResult) (signal : Int)
    (allowed : Int8) (status : WaitStatus) :
    (setForkInfo cfg alarm tr status signal allowed).rtype = .failure ∨
        (setForkInfo cfg alarm tr status signal allowed).rtype = .error ↔
      ¬ status.Expected alarm signal allowed := by
  cases status with
  | signaled sig =>
      rw [setForkInfo_signaled, WaitStatus.Expected]
      split <;> simp_all
  | exited code =>
      rw [setForkInfo_exited, WaitStatus.Expected]
      by_cases hsig : signal = 0
      · by_cases hcode : code.toInt8 = allowed
        · simp [hsig, hcode]
        · cases tr.msg <;> simp [hsig, hcode]
      · simp [hsig]

/-- The result of a test whose child has executed a failing assertion. -/
theorem tcaseRunTfunFork_assertFailed {x : Ctx} {s : St List SendMsg NestedRun}
    (h1 : s.proc.sendFile1.isSome) (hf : s.proc.fstat = .fork)
    (hsr : forkStatusOf x.env s.sr.fstat = .fork) {f : Pipe SendMsg}
    (hp : s.proc.getPipe = some f) (hold : ∀ m ∈ f.content, m.NonNeg) {tc : TCaseId}
    {tfun : TF NestedRun} {i : Int} {a : Assertion}
    (hassert : AssertFailedInChild x tc tfun i s a) :
    ∃ tr s', tcaseRunTfunFork x (runNested x) tc tfun i s = .ok tr s' ∧
      (tr.rtype = .failure ∨ tr.rtype = .error ↔
        ¬ (a.status x.cfg (killedBy x tc tfun i s)).Expected (x.env.alarm s.now) tfun.signal
          tfun.allowedExitValue) := by
  have hchild := testProcess_child (x := x) (s := forked x s) h1 hf hsr tc tfun i
  rw [AssertFailedInChild] at hassert
  have hne : asserts x.lvl s.proc.hist ++ [a] ≠ asserts x.lvl s.proc.hist := by simp
  cases hres : testProcess x (runNested x) tc tfun i (forked x s) with
  | ok u c =>
      rw [hres] at hchild hassert
      exact absurd (hassert.symm.trans hchild) hne
  | error e c =>
      rw [hres] at hchild hassert
      rcases hchild with hno | ⟨a', ms, hms', hms, hsent, hend⟩
      · exact absurd (hassert.symm.trans hno) hne
      obtain rfl : a' = a := by
        have hlast := List.append_cancel_left (hms'.symm.trans hassert)
        exact List.singleton_inj.mp hlast
      -- the child ends with the status of the assertion
      have hfork : forkChild x (testProcess x (runNested x) tc tfun i) s =
          .ok (a'.status x.cfg (killedBy x tc tfun i s)) (joinChild s c) := by
        rw [forkChild, show testProcess x (runNested x) tc tfun i
          (s.onProc fun q => { q with killIn := x.env.kill s.now }) = _ from hres, killedBy, hres]
        obtain ⟨sig, rfl⟩ | ⟨rfl, -⟩ := hend <;> rfl
      -- and what it has sent is received
      have hpipe := (hsent.congr rfl rfl).join hp
      have hnn : ∀ m ∈ f.content ++ ms, m.NonNeg :=
        List.forall_mem_append.mpr ⟨hold, fun m hm => (hms.2 m hm).1⟩
      have hlast : (received rcvmsgCreate (f.content ++ ms)).lastctx ≠ .invalid := by
        rw [received_append]
        exact hms.lastctx _
      let s1 := (joinChild s c).onProc fun p => { p with alarmReceived := x.env.alarm s.now }
      have hreceive := receiveTestResult_of_nonNeg (x := x) (s := s1) hpipe hnn hlast
        (waserror (a'.status x.cfg (killedBy x tc tfun i s)) tfun.signal)
      have halarm : (s1.onProc Proc.renew).proc.alarmReceived = x.env.alarm s.now :=
        Proc.alarmReceived_renew s1.proc
      rw [tcaseRunTfunFork, bind_of_ok _ hfork, read_bind, update_bind, read_bind]
      refine ⟨_, _, receiveResultInfoFork_of_ok hreceive .., ?_⟩
      rw [halarm]
      exact setForkInfo_counts_iff _ _ _ _ _ _

/-! ## the code -/

theorem Prog.Agree.endState {R : σ → τ → Prop} {r : EStateM.Result ε σ α}
    {r' : EStateM.Result ε τ α} (h : Agree R r r') : R (endState r) (endState r') := by
  cases h with
  | ok a h => exact h
  | error e h => exact h

theorem Prog.Agree.signalOf {R : σ → τ → Prop} {r : EStateM.Result Stop σ α}
    {r' : EStateM.Result Stop τ α} (h : Agree R r r') : signalOf r = signalOf r' := by
  cases h with
  | ok a h => rfl
  | error e h => cases e <;> rfl

theorem StRel.forked {x : Ctx} {s : St CkList UInt8 ν} {t : St List SendMsg ν}
    (h : StRel x.cfg s t) : StRel x.cfg (forked x s) (forked x t) := by
  cases h with
  | mk h1 h2 => exact .mk (LibCheck.forked x s) h1 h2

/-- The child of the code and the child of the abstract machine execute the same
assertions. -/
theorem AssertFailedInChild.abs {x : Ctx} {tc : TCaseId} {tfun : TF NestedRun} {i : Int}
    {s : St CkList UInt8 NestedRun} {t : St List SendMsg NestedRun} {a : Assertion}
    (hst : StRel x.cfg s t) (h : AssertFailedInChild x tc tfun i s a) :
    AssertFailedInChild x tc tfun i t a := by
  have hend := (sim_testProcess (x := x) (sparesCase_runNested _) (sim_runNested _) tc tfun i _ _
    hst.forked).endState
  rw [AssertFailedInChild, hend.hist_eq, hst.hist_eq]
  exact h

/-- They are killed alike. -/
theorem killedBy_abs {x : Ctx} {s : St CkList UInt8 NestedRun} {t : St List SendMsg NestedRun}
    (hst : StRel x.cfg s t) (tc : TCaseId) (tfun : TF NestedRun) (i : Int) :
    killedBy x tc tfun i t = killedBy x tc tfun i s := by
  exact (sim_testProcess (x := x) (sparesCase_runNested _) (sim_runNested _) tc tfun i _ _
    hst.forked).signalOf.symm

/-- A registered exit value is an exit status to `set_fork_info` if its lowest byte is. -/
theorem toInt8_eq_ofInt_iff (code : UInt8) (v : Int) :
    code.toInt8 = Int8.ofInt (v % 256) ↔ v % 256 = code.toNat := by
  have hbits : (Int8.ofInt (v % 256)).toBitVec = BitVec.ofInt 8 (v % 256) := rfl
  have hlt : code.toNat < 256 := code.toNat_lt
  rw [← Int8.toBitVec_inj, hbits, show code.toInt8.toBitVec = code.toBitVec from rfl,
    ← BitVec.toNat_inj, BitVec.toNat_ofInt, show code.toBitVec.toNat = code.toNat from rfl]
  omega

/-- The test is registered with the signal that kills its child in the assertion, or, where
nobody kills it, with the exit value with which the assertion ends it: `1`, or `2` if a message
of the assertion is not within the limit. -/
def ExpectsFailing (cfg : Config) (a : Assertion) (alarm : Bool) (signal allowedExitValue : Int) :
    (killed : Option Signal) → Prop
  | some sig => signal = sig.1 ∧ alarm = false
  | none => signal = 0 ∧ allowedExitValue % 256 = if a.Fits cfg then 1 else 2

theorem expected_status_iff (cfg : Config) (a : Assertion) (alarm : Bool) (signal v : Int)
    (killed : Option Signal) :
    (a.status cfg killed).Expected alarm signal (Int8.ofInt (v % 256)) ↔
      ExpectsFailing cfg a alarm signal v killed := by
  cases killed with
  | some sig => rfl
  | none =>
      rw [Assertion.status, WaitStatus.Expected, toInt8_eq_ofInt_iff, ExpectsFailing,
        Assertion.exitStatus]
      split <;> rfl

theorem srunnerNtestsFailed_add {L : Type → Type} {β ν : Type} [Lists L] {tr : TestResult}
    {s s' : St L β ν} (h : srunnerAddFailure tr s = .ok () s') :
    srunnerNtestsFailed s'.sr = srunnerNtestsFailed s.sr +
      if tr.rtype = .failure ∨ tr.rtype = .error then 1 else 0 := by
  cases h
  cases htr : tr.rtype <;> simp [srunnerNtestsFailed] <;> omega

/-- **A failed assertion is recorded as a failure, unless the test expects what it does to the
process**: for every test of a runner in `CK_FORK` mode, whatever its functions do, whose process
executes a failing assertion. -/
theorem assertion_recorded_iff {x : Ctx} {s : St CkList UInt8 NestedRun} {old : List SendMsg}
    (h1 : s.proc.sendFile1.isSome) (hf : s.proc.fstat = .fork)
    (hsr : forkStatusOf x.env s.sr.fstat = .fork) (hpipe : PipeHolds x.cfg s.proc old)
    (hold : ∀ m ∈ old, m.NonNeg) {tc : TCaseId} {ttest : TTest NestedRun}
    {signal allowedExitValue start stop i : Int} {a : Assertion}
    (hassert : AssertFailedInChild x tc
      (tcaseAddTest ttest signal allowedExitValue start stop) i s a) :
    ∃ tr s₁ s₂,
      tcaseRunTfun x (runNested x) tc (tcaseAddTest ttest signal allowedExitValue start stop) i s =
        .ok tr s₁ ∧ srunnerAddFailure tr s₁ = .ok () s₂ ∧
      ((tr.rtype = .failure ∨ tr.rtype = .error) ∧
          srunnerNtestsFailed s₂.sr = srunnerNtestsFailed s.sr + 1 ↔
        ¬ ExpectsFailing x.cfg a (x.env.alarm s.now) signal allowedExitValue
          (killedBy x tc (tcaseAddTest ttest signal allowedExitValue start stop) i s)) := by
  obtain ⟨t, f, hst, hp, hc⟩ := hpipe.exists_stRel
  have habs := hassert.abs hst
  rw [← killedBy_abs hst, ← expected_status_iff]
  have hrun : ∃ tr t', tcaseRunTfunFork x (runNested x) tc
      (tcaseAddTest ttest signal allowedExitValue start stop) i t = .ok tr t' ∧
      (tr.rtype = .failure ∨ tr.rtype = .error ↔
        ¬ (a.status x.cfg (killedBy x tc
          (tcaseAddTest ttest signal allowedExitValue start stop) i t)).Expected
            (x.env.alarm s.now) signal (Int8.ofInt (allowedExitValue % 256))) := by
    rw [← hc] at hold
    cases hst with
    | @mk f1 f2 hf1 hf2 =>
        refine tcaseRunTfunFork_assertFailed ?_ hf hsr hp hold habs
        show f1.isSome
        rw [← isSome_eq hf1]
        exact h1
  obtain ⟨tr, t', ht', hrtype⟩ := hrun
  obtain ⟨s₁, hs₁, -⟩ := (sim_tcaseRunTfunFork (x := x) (sparesCase_runNested _)
      (sim_runNested _) tc _
    i).to_ok hst ht'
  have hsr₁ : s₁.sr = s.sr :=
    congrArg (fun m => m.2.1) ((keeps_tcaseRunTfunFork tc _ i).of_ok hs₁)
  refine ⟨tr, s₁, _, ?_, rfl, ?_⟩
  · rw [tcaseRunTfun, srunnerForkStatus, read_bind, hsr]
    exact hs₁
  · rw [← hrtype, srunnerNtestsFailed_add rfl, hsr₁]
    constructor
    · exact fun h => h.1
    · intro h
      exact ⟨h, by rw [if_pos h]⟩

/-- A test with the given expected signal and allowed exit value that does
nothing but fail. -/
def Sample.exitTest (signal allowedExitValue : Int) : TF NestedRun :=
  tcaseAddTest ⟨.lit "t", fun _ _ => [Sample.fail], Sample.loc⟩ signal allowedExitValue 0 1

/-- A runner in `CK_FORK` mode with one test case, about to run a test of it. -/
def Sample.forking : St CkList UInt8 NestedRun :=
  Sample.running [⟨fun _ => [], [], none⟩] .fork

/-- What it fails with. -/
def Sample.notEqual : Assertion := ⟨Sample.loc, .lit "x == y", none⟩

/-- An ordinary test that fails. -/
theorem assertion_recorded_iff_ordinary :
    ∃ tr s₁ s₂,
      tcaseRunTfun Sample.ctx (runNested Sample.ctx) 0 (Sample.exitTest 0 0) 0 Sample.forking =
        .ok tr s₁ ∧ srunnerAddFailure tr s₁ = .ok () s₂ ∧
      (tr.rtype = .failure ∨ tr.rtype = .error) ∧
      srunnerNtestsFailed s₂.sr = srunnerNtestsFailed Sample.forking.sr + 1 := by
  have hassert : AssertFailedInChild Sample.ctx 0 (Sample.exitTest 0 0) 0 Sample.forking
      Sample.notEqual := by
    unfold AssertFailedInChild
    decide +kernel
  have hkilled : killedBy Sample.ctx 0 (Sample.exitTest 0 0) 0 Sample.forking = none := by
    decide +kernel
  obtain ⟨tr, s₁, s₂, hs₁, hs₂, hiff⟩ := assertion_recorded_iff (s := Sample.forking) rfl rfl rfl
    (Sample.pipeHolds_running _ _) (fun _ hm => absurd hm List.not_mem_nil) hassert
  refine ⟨tr, s₁, s₂, hs₁, hs₂, hiff.mpr ?_⟩
  change ¬ ExpectsFailing _ _ _ _ _ (killedBy Sample.ctx 0 (Sample.exitTest 0 0) 0 Sample.forking)
  rw [hkilled]
  rintro ⟨-, hexit⟩
  split at hexit <;> cases hexit

/-- A failing assertion that is reported as a pass: the test is expected to
exit with `1`. -/
theorem assertion_reported_as_pass :
    AssertFailedInChild Sample.ctx 0 (Sample.exitTest 0 1) 0 Sample.forking Sample.notEqual ∧
    ∃ tr s₁ s₂,
      tcaseRunTfun Sample.ctx (runNested Sample.ctx) 0 (Sample.exitTest 0 1) 0 Sample.forking =
        .ok tr s₁ ∧ srunnerAddFailure tr s₁ = .ok () s₂ ∧ tr.rtype = .pass ∧
      srunnerNtestsFailed s₂.sr = 0 := by
  have hassert : AssertFailedInChild Sample.ctx 0 (Sample.exitTest 0 1) 0 Sample.forking
      Sample.notEqual := by
    unfold AssertFailedInChild
    decide +kernel
  have hrun : (returned (tcaseRunTfun Sample.ctx (runNested Sample.ctx) 0 (Sample.exitTest 0 1) 0
      Sample.forking)).map (fun r => (r.1.rtype, srunnerNtestsFailed r.2.sr)) =
        some (.pass, 0) := by
    decide +kernel
  obtain ⟨tr, s₁, hs₁, hr⟩ := ok_of_returned hrun
  obtain ⟨hrtype, hn⟩ := Prod.mk.inj hr
  refine ⟨hassert, tr, s₁, _, hs₁, rfl, hrtype, ?_⟩
  rw [srunnerNtestsFailed_add rfl, hn, hrtype]
  decide

end LibCheck
