import LibCheck.Lockstep
import LibCheck.Plain

/-!
# LibCheck.Report

What is reported of a test made of plain functions, in both modes.

The functions are followed on the abstract machine: `Wrote ms s s'` says that
from `s` to `s'` nothing happened but that the messages `ms` were sent, and
each part of a test has one evaluation lemma in terms of it.
-/

namespace LibCheck

open Prog

/-! ## sending -/

/-- The process can send: it is not going to be killed, and a message file is
open. -/
def Ready (s : St List SendMsg ν) : Prop := s.proc.killIn = none ∧ s.proc.getPipe.isSome

/-- The files of a process are those of `p` with the messages `ms` appended. -/
def SentTo (p : Proc SendMsg) (ms : List SendMsg) (q : Proc SendMsg) : Prop :=
  q.sendFile1 = (p.fwrite ms).sendFile1 ∧ q.sendFile2 = (p.fwrite ms).sendFile2

theorem SentTo.congr {p p' q : Proc SendMsg} {ms : List SendMsg} (h : SentTo p ms q)
    (h1 : p'.sendFile1 = p.sendFile1) (h2 : p'.sendFile2 = p.sendFile2) : SentTo p' ms q := by
  cases e2 : p.sendFile2 <;>
    simpa only [SentTo, Proc.fwrite, h1, h2, e2] using h

theorem SentTo.isSome_getPipe {p q : Proc SendMsg} {ms : List SendMsg} (h : SentTo p ms q)
    (hp : p.getPipe.isSome) : q.getPipe.isSome := by
  obtain ⟨h1, h2⟩ := h
  cases e2 : p.sendFile2 <;> cases e1 : p.sendFile1 <;>
    simp_all [Proc.getPipe, Proc.fwrite]

theorem Proc.isSome_getPipe {p : Proc SendMsg} (h : p.sendFile1.isSome) : p.getPipe.isSome := by
  rw [Proc.getPipe]
  cases p.sendFile2 with
  | none => exact h
  | some f => rfl

/-- From `s` to `s'`, nothing happened but that the messages `ms` were sent. -/
structure Wrote (ms : List SendMsg) (s s' : St List SendMsg ν) : Prop where
  memory : s'.memory = s.memory
  fstat : s'.proc.fstat = s.proc.fstat
  killIn : s'.proc.killIn = s.proc.killIn
  file1 : s'.proc.sendFile1 = (s.proc.fwrite ms).sendFile1
  file2 : s'.proc.sendFile2 = (s.proc.fwrite ms).sendFile2

namespace Wrote

variable {ms ms' : List SendMsg} {s s' s'' : St List SendMsg ν}

theorem now (h : Wrote ms s s') : s'.now = s.now := congrArg (fun m => m.2.2) h.memory

theorem heap (h : Wrote ms s s') : s'.heap = s.heap := congrArg (fun m => m.1) h.memory

theorem sr (h : Wrote ms s s') : s'.sr = s.sr := congrArg (fun m => m.2.1) h.memory

protected theorem refl (s : St List SendMsg ν) : Wrote [] s s := by
  refine ⟨rfl, rfl, rfl, ?_, ?_⟩
  · cases h2 : s.proc.sendFile2 <;> cases h1 : s.proc.sendFile1 <;>
      simp only [Proc.fwrite, h2, h1, List.append_nil, Option.map_none, Option.map_some]
  · cases h2 : s.proc.sendFile2 <;> simp only [Proc.fwrite, h2, List.append_nil]

theorem trans (h : Wrote ms s s') (h' : Wrote ms' s' s'') : Wrote (ms ++ ms') s s'' := by
  refine ⟨h'.memory.trans h.memory, h'.fstat.trans h.fstat, h'.killIn.trans h.killIn,
    h'.file1.trans ?_, h'.file2.trans ?_⟩
  all_goals
    have h1 := h.file1
    have h2 := h.file2
    cases e2 : s.proc.sendFile2 <;> cases e1 : s.proc.sendFile1 <;>
      simp only [Proc.fwrite, e2, e1, Option.map_none, Option.map_some] at h1 h2 ⊢ <;>
      simp only [h1, h2, List.append_assoc, Option.map_none, Option.map_some]

/-- The current message file after the messages were sent. -/
theorem getPipe (h : Wrote ms s s') (hp : s.proc.getPipe = some f) :
    s'.proc.getPipe = some { f with content := f.content ++ ms } := by
  have h1 := h.file1
  have h2 := h.file2
  cases e2 : s.proc.sendFile2 with
  | none =>
      have e1 : s.proc.sendFile1 = some f := by simpa only [Proc.getPipe, e2] using hp
      simp only [Proc.fwrite, e2, e1, Option.map_some] at h1 h2
      simp only [Proc.getPipe, h1, h2]
  | some g =>
      have hg : g = f := by simpa only [Proc.getPipe, e2, Option.some.injEq] using hp
      simp only [Proc.fwrite, e2] at h2
      simp only [Proc.getPipe, h2, hg]

theorem ready (h : Wrote ms s s') (hr : Ready s) : Ready s' := by
  obtain ⟨f, hf⟩ := Option.isSome_iff_exists.mp hr.2
  exact ⟨h.killIn.trans hr.1, by rw [h.getPipe hf]; rfl⟩

end Wrote

section

variable {x : Ctx} {call : ν → RunM List SendMsg ν Unit} {s : St List SendMsg ν}

/-- Sending a message that is within the limit. -/
theorem sendMsg_of_ready (hr : Ready s) {m : SendMsg} (hnn : m.NonNeg)
    (hlim : Limited x.cfg.maxMsg [m]) :
    sendMsg x m s = .ok () (s.onProc (Proc.fwrite [m])) := by
  obtain ⟨hk, hp⟩ := hr
  obtain ⟨f, hf⟩ := Option.isSome_iff_exists.mp hp
  have hacc : (Wire.ppack x.cfg m : Except EPrintf (List SendMsg)) = .ok [m] := by
    obtain ⟨hmax, hint⟩ := hlim m List.mem_cons_self
    show (ppack x.cfg.sz x.cfg.maxMsg m).map (fun _ => [m]) = .ok [m]
    rw [ppack_of_fits hnn hint hmax]
    rfl
  have hkill : killPoint s = (.ok () s : EStateM.Result _ _ _) := by
    rw [killPoint, read_bind, hk]
    rfl
  rw [sendMsg, bind_of_ok _ hkill, read_bind, hf, hacc]
  rfl

/-- Sending any message: `ppack` refuses it, or it is sent. -/
theorem sendMsg_refused_or_sent (hr : Ready s) (m : SendMsg) :
    sendMsg x m s = .error (.exited 2) s ∨ sendMsg x m s = .ok () (s.onProc (Proc.fwrite [m])) := by
  obtain ⟨hk, hp⟩ := hr
  obtain ⟨f, hf⟩ := Option.isSome_iff_exists.mp hp
  have hkill : killPoint s = (.ok () s : EStateM.Result _ _ _) := by
    rw [killPoint, read_bind, hk]
    rfl
  have hacc : (Wire.ppack x.cfg m : Except EPrintf (List SendMsg)) =
      (ppack x.cfg.sz x.cfg.maxMsg m).map fun _ => [m] := rfl
  rw [sendMsg, bind_of_ok _ hkill, read_bind, hf, hacc]
  cases ppack x.cfg.sz x.cfg.maxMsg m with
  | error e => exact .inl rfl
  | ok data => exact .inr rfl

/-- What is sent with a `size_t` of 64 bits has no negative `int` field. -/
theorem nonNeg_of_sent {m : SendMsg} {s' : St List SendMsg ν} (hsz : x.cfg.sz = .w64)
    (h : sendMsg x m s = .ok () s') : m.NonNeg := by
  obtain ⟨_, _, -, hsend⟩ | ⟨-, hsend⟩ | ⟨data, hdata, -, -⟩ := sendMsg_apply x m s
  · cases hsend.symm.trans h
  · cases hsend.symm.trans h
  · have hacc : (ppack x.cfg.sz x.cfg.maxMsg m).map (fun _ => [m]) = .ok data := hdata
    cases hp : ppack x.cfg.sz x.cfg.maxMsg m with
    | error e =>
        rw [hp] at hacc
        cases hacc
    | ok buf => exact (ppack_ok hp).2.2.2 hsz

theorem wrote_observe (o : Obs) (s : St List SendMsg ν) :
    Wrote [] s (s.onProc (Proc.observe x.lvl o)) :=
  ⟨rfl, rfl, rfl, (Wrote.refl s).file1, (Wrote.refl s).file2⟩

theorem wrote_fwrite (ms : List SendMsg) (s : St List SendMsg ν) :
    Wrote ms s (s.onProc (Proc.fwrite ms)) := by
  refine ⟨rfl, ?_, ?_, rfl, rfl⟩ <;>
  · simp only [St.onProc, Proc.fwrite]
    split <;> rfl

theorem errorJmpBuffer_fwrite (ms : List SendMsg) (p : Proc SendMsg) :
    (p.fwrite ms).errorJmpBuffer = p.errorJmpBuffer := by
  simp only [Proc.fwrite]
  split <;> rfl

/-! ## plain functions -/

theorem SrcLoc.nonNeg_msg (loc : SrcLoc) : loc.msg.NonNeg := loc.line_nonneg

/-- What a failing assertion does after it has sent its messages: in a process
with the fork status `CK_FORK` it exits, else it jumps. -/
def leave (x : Ctx) (p : Proc SendMsg) (s' : St List SendMsg ν) :
    EStateM.Result Stop (St List SendMsg ν) Bool :=
  if p.fstat = .fork then .error (.exited 1) s'
  else if p.errorJmpBuffer = some x.lvl then .ok true s'
  else .error .undefined s'

/-- A failing assertion sends its place and its text, and is left. -/
theorem ckAssertFailed_of_ready (hr : Ready s) (loc : SrcLoc) (expr : CStr) (msg : Option CStr)
    (hlim : Limited x.cfg.maxMsg [loc.msg, .fail (some (failureText x.cfg expr msg))]) :
    ∃ s', Wrote [loc.msg, .fail (some (failureText x.cfg expr msg))] s s' ∧
      (do
        ckAssertFailed x loc expr msg
        pure true) s = leave x s.proc s' := by
  obtain ⟨hm, hms⟩ := List.forall_mem_cons.mp hlim
  let s1 := s.onProc (Proc.observe x.lvl (.assertFailed ⟨loc, expr, msg⟩))
  let s2 := s1.onProc (Proc.fwrite [loc.msg])
  let s3 := s2.onProc (Proc.fwrite [.fail (some (failureText x.cfg expr msg))])
  have hw1 : Wrote [] s s1 := wrote_observe _ s
  have hw2 : Wrote [loc.msg] s s2 := hw1.trans (wrote_fwrite _ s1)
  have hw : Wrote [loc.msg, .fail (some (failureText x.cfg expr msg))] s s3 :=
    hw2.trans (wrote_fwrite _ s2)
  have hjmp : s3.proc.errorJmpBuffer = s.proc.errorJmpBuffer :=
    (errorJmpBuffer_fwrite _ _).trans (errorJmpBuffer_fwrite _ _)
  have hsend1 : sendLocInfo x loc s1 = .ok () s2 :=
    sendMsg_of_ready (hw1.ready hr) loc.nonNeg_msg (List.forall_mem_singleton.mpr hm)
  have hnn : (CheckMsg.fail (some (failureText x.cfg expr msg)) : SendMsg).NonNeg := trivial
  have hsend2 : sendFailureInfo x (failureText x.cfg expr msg) s2 = .ok () s3 :=
    sendMsg_of_ready (hw2.ready hr) hnn hms
  refine ⟨s3, hw, ?_⟩
  rw [bind_apply, ckAssertFailed, update_bind, bind_of_ok _ hsend1, bind_of_ok _ hsend2, read_bind,
    leave, ← hw.fstat, ← hjmp]
  by_cases hf : s3.proc.fstat = .fork
  · rw [if_pos hf, if_pos (decide_eq_true hf)]
    rfl
  · rw [if_neg hf, if_neg fun h => hf (of_decide_eq_true h), read_bind]
    by_cases hj : s3.proc.errorJmpBuffer = some x.lvl
    · rw [if_pos hj, if_pos (decide_eq_true hj)]
      rfl
    · rw [if_neg hj, if_neg fun h => hj (of_decide_eq_true h)]
      rfl

variable (call) in
/-- A plain function sends its messages, and returns or is left. -/
theorem runFun_plain {acts : List (Act ν)} (hp : Plain acts) (hr : Ready s)
    (hlim : Limited x.cfg.maxMsg (messages x.cfg acts)) :
    ∃ s', Wrote (messages x.cfg acts) s s' ∧
      runFun x call acts s =
        if (failureOf x.cfg acts).isSome then leave x s.proc s' else .ok false s' := by
  induction hp generalizing s with
  | nil => exact ⟨s, .refl s, rfl⟩
  | @markPoint loc acts hp ih =>
      obtain ⟨hm, hms⟩ := List.forall_mem_cons.mp hlim
      have hsend := sendMsg_of_ready (x := x) hr loc.nonNeg_msg (List.forall_mem_singleton.mpr hm)
      have hw := wrote_fwrite [loc.msg] s
      obtain ⟨s', hw', hrun⟩ := ih (hw.ready hr) hms
      refine ⟨s', hw.trans hw', (bind_of_ok _ hsend).trans (hrun.trans ?_)⟩
      rw [leave, leave, hw.fstat, St.onProc, errorJmpBuffer_fwrite]
      rfl
  | assertFailed loc expr msg => exact ckAssertFailed_of_ready hr loc expr msg hlim

variable (call) in
/-- A plain fixture. -/
theorem callFixture_plain (fl : FixtureList) {f : Fixture ν} (hp : Plain (f.sfun.acts s.now))
    (hr : Ready s) (hlim : Limited x.cfg.maxMsg (messages x.cfg (f.sfun.acts s.now))) :
    ∃ s', Wrote (messages x.cfg (f.sfun.acts s.now)) s s' ∧
      callFixture x call fl f s =
        if (failureOf x.cfg (f.sfun.acts s.now)).isSome then leave x s.proc s'
        else .ok false s' := by
  have hw := wrote_observe (x := x) (.fixture fl f.sfun.addr) s
  obtain ⟨s', hw', hrun⟩ := runFun_plain call hp (hw.ready hr) hlim
  exact ⟨s', hw.trans hw', hrun⟩

variable (call) in
/-- A plain test function. -/
theorem callTest_plain {t : TestCode ν} (ht : t.Plain x.cfg) (hr : Ready s)
    (hnow : s.now = t.now) :
    ∃ s', Wrote (t.header ++ messages x.cfg t.body) s s' ∧
      callTest x call t.tfun t.iter s =
        if (failureOf x.cfg t.body).isSome then leave x s.proc s' else .ok false s' := by
  obtain ⟨hctx, hloc⟩ := List.forall_mem_cons.mp ht.header
  have hnn : (CheckMsg.ctx .test : SendMsg).NonNeg := trivial
  let s1 := s.onProc (Proc.fwrite [.ctx .test])
  let s2 := s1.onProc (Proc.fwrite [t.tfun.ttest.loc.msg])
  have hw1 : Wrote [.ctx .test] s s1 := wrote_fwrite _ s
  have hw2 : Wrote [t.tfun.ttest.loc.msg] s1 s2 := wrote_fwrite _ s1
  have hw3 := wrote_observe (x := x) (.body t.tfun.ttest.name t.iter) s2
  have hw := (hw1.trans hw2).trans hw3
  have hsend1 : sendCtxInfo x .test s = .ok () s1 :=
    sendMsg_of_ready hr hnn (List.forall_mem_singleton.mpr hctx)
  have hsend2 : sendLocInfo x t.tfun.ttest.loc s1 = .ok () s2 :=
    sendMsg_of_ready (hw1.ready hr) t.tfun.ttest.loc.nonNeg_msg hloc
  have hjmp : s2.proc.errorJmpBuffer = s.proc.errorJmpBuffer :=
    (errorJmpBuffer_fwrite _ _).trans (errorJmpBuffer_fwrite _ _)
  obtain ⟨s', hw', hrun⟩ := runFun_plain call ht.body.1 (hw.ready hr) ht.body.2
  refine ⟨s', hw.trans hw', ?_⟩
  have hcall : callTest x call t.tfun t.iter s =
      runFun x call t.body (s2.onProc (Proc.observe x.lvl (.body t.tfun.ttest.name t.iter))) := by
    rw [callTest, bind_of_ok _ hsend1, bind_of_ok _ hsend2, update_bind, read_bind,
      show (s2.onProc (Proc.observe x.lvl (.body t.tfun.ttest.name t.iter))).now = t.now from
        hw.now.trans hnow]
    rfl
  rw [hcall, hrun, leave, leave, hw.fstat, ← hjmp]
  rfl

/-! ## in both modes -/

/-- A function called behind a `setjmp`: with the fork status `CK_FORK` a
failing assertion still exits. -/
theorem protect_of_leave {f : RunM List SendMsg ν Bool} (ms : List SendMsg) (fails : Bool)
    (h : ∀ s1 : St List SendMsg ν, Wrote [] s s1 →
      ∃ s', Wrote ms s1 s' ∧ f s1 = if fails then leave x s1.proc s' else .ok false s') :
    ∃ s', Wrote ms s s' ∧ protect x f s =
      if fails then (if s.proc.fstat = .fork then .error (.exited 1) s' else .ok true s')
      else .ok false s' := by
  have hw : Wrote [] s (s.onProc fun p => { p with errorJmpBuffer := some x.lvl }) :=
    ⟨rfl, rfl, rfl, (Wrote.refl s).file1, (Wrote.refl s).file2⟩
  obtain ⟨s', hw', hf⟩ := h _ hw
  refine ⟨s', hw.trans hw', ?_⟩
  rw [protect, update_bind, hf, leave]
  simp only [St.onProc, if_true]

/-- A function called in a child process. -/
theorem unprotected_of_leave {f : RunM List SendMsg ν Bool} {fails : Bool}
    {s' : St List SendMsg ν} (hf : s.proc.fstat = .fork)
    (h : f s = if fails then leave x s.proc s' else .ok false s') :
    unprotected f s = if fails then .error (.exited 1) s' else .ok () s' := by
  rw [unprotected, bind_apply, h, leave, if_pos hf]
  cases fails <;> rfl

/-- A walk over fixtures that sends what they send and is left by the first one
that fails, in the way `stop`. -/
theorem findSomeM_plain {now : When} {fst : ForkStatus} {hdr : List SendMsg}
    {body : Fixture ν → RunM List SendMsg ν (Option α)}
    (stop : St List SendMsg ν → EStateM.Result Stop (St List SendMsg ν) (Option α))
    (hstop : ∀ s s', stop s ≠ .ok none s') {fs : List (Fixture ν)}
    (hbody : ∀ f ∈ fs, ∀ s : St List SendMsg ν, Ready s → s.proc.fstat = fst → s.now = now →
      ∃ s', Wrote (hdr ++ messages x.cfg (f.sfun.acts now)) s s' ∧
        body f s = if (failureOf x.cfg (f.sfun.acts now)).isSome then stop s' else .ok none s')
    (hr : Ready s) (hfst : s.proc.fstat = fst) (hnow : s.now = now) :
    ∃ s', Wrote (sentBy x.cfg now hdr fs) s s' ∧
      fs.findSomeM? body s =
        if (firstFailure x.cfg now fs).isSome then stop s' else .ok none s' := by
  induction fs generalizing s with
  | nil => exact ⟨s, .refl s, rfl⟩
  | cons f fs ih =>
      obtain ⟨s1, hw1, hf⟩ := hbody f List.mem_cons_self s hr hfst hnow
      rw [firstFailure, List.findSome?_cons, sentBy, List.findSomeM?, bind_apply, hf]
      cases hff : failureOf x.cfg (f.sfun.acts now) with
      | some g =>
          refine ⟨s1, by simpa [hff] using hw1, ?_⟩
          have hne := hstop s1
          simp only [Option.isSome_some, if_true]
          generalize stop s1 = r at hne ⊢
          cases r with
          | ok o t =>
              cases o with
              | some a => rfl
              | none => exact absurd rfl (hne t)
          | error e t => rfl
      | none =>
          obtain ⟨s2, hw2, hrest⟩ := ih (fun g hg => hbody g (List.mem_cons_of_mem f hg))
            (hw1.ready hr) (hw1.fstat.trans hfst) (hw1.now.trans hnow)
          exact ⟨s2, by simpa [hff] using hw1.trans hw2, hrest⟩

variable (call) in
/-- Teardowns are run behind a `setjmp`: the first one that fails ends the
loop, or the process if its fork status is `CK_FORK`. -/
theorem srunnerRunTeardown_plain {now : When} (fl : FixtureList) (tc : TCaseId)
    (hp : ∀ f ∈ s.heap.lists (.fixtures fl tc), PlainFun x.cfg (f.sfun.acts now))
    (hctx : ∀ c, Limited x.cfg.maxMsg [.ctx c]) (hr : Ready s) (hnow : s.now = now) :
    ∃ s', Wrote (sentBy x.cfg now [.ctx .teardown] (s.heap.lists (.fixtures fl tc))) s s' ∧
      srunnerRunTeardown x call fl tc .nofork s =
        if (firstFailure x.cfg now (s.heap.lists (.fixtures fl tc))).isSome ∧ s.proc.fstat = .fork
        then .error (.exited 1) s' else .ok () s' := by
  have hbody : ∀ f ∈ s.heap.lists (.fixtures fl tc), ∀ s1 : St List SendMsg ν, Ready s1 →
      s1.proc.fstat = s.proc.fstat → s1.now = now →
      ∃ s', Wrote ([.ctx .teardown] ++ messages x.cfg (f.sfun.acts now)) s1 s' ∧
        runTeardown x call fl .nofork f s1 =
          if (failureOf x.cfg (f.sfun.acts now)).isSome then
            (if s.proc.fstat = .fork then .error (.exited 1) s' else .ok (some ()) s')
          else .ok none s' := by
    intro f hf s1 hr1 hfst1 hnow1
    have hsend := sendMsg_of_ready (x := x) (m := .ctx .teardown) hr1 trivial (hctx _)
    have hw1 := wrote_fwrite [.ctx .teardown] s1
    obtain ⟨s', hw', hprot⟩ := protect_of_leave (x := x) (f := callFixture x call fl f)
      (s := s1.onProc (Proc.fwrite [.ctx .teardown]))
      (messages x.cfg (f.sfun.acts now)) (failureOf x.cfg (f.sfun.acts now)).isSome (by
        intro s2 hw2
        have hnow2 : s2.now = now := hw2.now.trans (hw1.now.trans hnow1)
        have hpf := hp f hf
        rw [← hnow2] at hpf ⊢
        exact callFixture_plain call fl hpf.1 (hw2.ready (hw1.ready hr1)) hpf.2)
    refine ⟨s', hw1.trans hw', ?_⟩
    have hrun : runTeardown x call fl .nofork f s1 = _ := bind_of_ok _ hsend
    rw [hrun, if_pos rfl, bind_apply, hprot, hw1.fstat, hfst1]
    cases (failureOf x.cfg (f.sfun.acts now)).isSome with
    | false => rfl
    | true =>
        by_cases hfork : s.proc.fstat = .fork
        · simp only [hfork, if_true]
        · simp only [hfork, if_true, if_false]
          rfl
  obtain ⟨s', hw, hwalk⟩ := findSomeM_plain (x := x)
    (fun s' => if s.proc.fstat = .fork then .error (.exited 1) s' else .ok (some ()) s')
    (by
      intro s1 s'
      split <;> exact fun he => nomatch he) hbody hr rfl hnow
  refine ⟨s', hw, ?_⟩
  have hlist : forList x (.fixtures fl tc) (runTeardown x call fl .nofork) s =
      (s.heap.lists (.fixtures fl tc)).findSomeM? (runTeardown x call fl .nofork) s := rfl
  rw [srunnerRunTeardown, bind_apply, hlist, hwalk]
  cases (firstFailure x.cfg now (s.heap.lists (.fixtures fl tc))).isSome with
  | false => rfl
  | true =>
      by_cases hfork : s.proc.fstat = .fork
      · simp only [hfork, if_true, and_self]
      · simp only [hfork, if_true, if_false, and_false]
        rfl

/-! ## a child process -/

/-- A part of a child process: it sends `ms`, and exits with an assertion that
failed or returns `a`. -/
def Stage (ms : List SendMsg) (fails : Bool) (a : α) (y : RunM List SendMsg ν α)
    (s : St List SendMsg ν) : Prop :=
  ∃ s', Wrote ms s s' ∧ y s = if fails then .error (.exited 1) s' else .ok a s'

theorem Stage.bind {ms ms' : List SendMsg} {b b' : Bool} {a : α} {c : γ}
    {y : RunM List SendMsg ν α} {f : α → RunM List SendMsg ν γ} (h : Stage ms b a y s)
    (h' : b = false → ∀ s1, Wrote ms s s1 → Stage ms' b' c (f a) s1) :
    Stage (ms ++ if b then [] else ms') (b || b') c (y >>= f) s := by
  obtain ⟨s1, hw, hy⟩ := h
  cases b with
  | true =>
      refine ⟨s1, by simpa using hw, ?_⟩
      rw [bind_of_error f hy]
      rfl
  | false =>
      obtain ⟨s2, hw', hf⟩ := h' rfl s1 hw
      refine ⟨s2, hw.trans hw', ?_⟩
      rw [bind_of_ok f hy, hf]
      rfl

/-- The checked setups in a child process. -/
theorem stage_tcaseRunCheckedSetup {t : TestCode ν} (ht : t.Plain x.cfg) {tc : TCaseId}
    (hset : s.heap.lists (.fixtures .chSflst tc) = t.setups) (hnow : s.now = t.now)
    (hr : Ready s) (hf : s.proc.fstat = .fork) (hsr : forkStatusOf x.env s.sr.fstat = .fork) :
    Stage (.ctx .setup :: sentBy x.cfg t.now [] t.setups)
      (firstFailure x.cfg t.now t.setups).isSome none (tcaseRunCheckedSetup x call tc) s := by
  have hsend := sendMsg_of_ready (x := x) (m := .ctx .setup) hr trivial (ht.ctx _)
  have hw1 := wrote_fwrite [.ctx .setup] s
  have hbody : ∀ f ∈ t.setups, ∀ s1 : St List SendMsg ν, Ready s1 → s1.proc.fstat = .fork →
      s1.now = t.now → ∃ s', Wrote ([] ++ messages x.cfg (f.sfun.acts t.now)) s1 s' ∧
        runSetup x call .chSflst .fork (s.heap.tcName tc) (.lit "checked_setup") f s1 =
          if (failureOf x.cfg (f.sfun.acts t.now)).isSome then .error (.exited 1) s'
          else .ok none s' := by
    intro f hfm s1 hr1 hf1 hnow1
    have hpf := ht.setups f hfm
    rw [← hnow1] at hpf ⊢
    obtain ⟨s', hw', hcall⟩ := callFixture_plain call .chSflst hpf.1 hr1 hpf.2
    refine ⟨s', hw', ?_⟩
    rw [runSetup, if_neg (by decide), bind_apply, unprotected_of_leave hf1 hcall]
    cases (failureOf x.cfg (f.sfun.acts s1.now)).isSome <;> rfl
  obtain ⟨s', hw', hwalk⟩ := findSomeM_plain (x := x) (fun s' => .error (.exited 1) s')
    (fun _ _ he => nomatch he) hbody (hw1.ready hr) (hw1.fstat.trans hf) (hw1.now.trans hnow)
  refine ⟨s', hw1.trans hw', ?_⟩
  have hstart : tcaseRunCheckedSetup x call tc s =
      forList x (.fixtures .chSflst tc)
        (runSetup x call .chSflst .fork (s.heap.tcName tc) (.lit "checked_setup"))
        (s.onProc (Proc.fwrite [.ctx .setup])) := by
    rw [tcaseRunCheckedSetup, srunnerForkStatus, read_bind, read_bind, srunnerRunSetup, hsr,
      if_pos rfl]
    exact bind_of_ok _ hsend
  rw [hstart, ← hwalk, ← hset]
  rfl

/-- The test function in a child process. -/
theorem stage_callTest {t : TestCode ν} (ht : t.Plain x.cfg) (hnow : s.now = t.now) (hr : Ready s)
    (hf : s.proc.fstat = .fork) :
    Stage (t.header ++ messages x.cfg t.body) (failureOf x.cfg t.body).isSome ()
      (unprotected (callTest x call t.tfun t.iter)) s := by
  obtain ⟨s', hw, hcall⟩ := callTest_plain call ht hr hnow
  exact ⟨s', hw, unprotected_of_leave hf hcall⟩

/-- The checked teardowns in a child process. -/
theorem stage_tcaseRunCheckedTeardown {t : TestCode ν} (ht : t.Plain x.cfg) {tc : TCaseId}
    (hset : s.heap.lists (.fixtures .chTflst tc) = t.teardowns) (hnow : s.now = t.now)
    (hr : Ready s) (hf : s.proc.fstat = .fork) :
    Stage (sentBy x.cfg t.now [.ctx .teardown] t.teardowns)
      (firstFailure x.cfg t.now t.teardowns).isSome () (tcaseRunCheckedTeardown x call tc) s := by
  rw [← hset]
  obtain ⟨s', hw, hrun⟩ := srunnerRunTeardown_plain call .chTflst tc
    (hset ▸ ht.teardowns) ht.ctx hr hnow
  refine ⟨s', hw, ?_⟩
  simp only [hf, and_true] at hrun
  exact hrun

/-- The last part of a child process. -/
theorem stage_duration {d : Int32} (hr : Ready s) (hd : 0 ≤ d.toInt)
    (hlim : Limited x.cfg.maxMsg [.duration d]) :
    Stage [.duration d] false () (do
      sendDurationInfo x d
      killPoint) s := by
  have hsend : sendDurationInfo x d s = .ok () (s.onProc (Proc.fwrite [.duration d])) :=
    sendMsg_of_ready hr hd hlim
  have hw := wrote_fwrite [.duration d] s
  refine ⟨_, hw, ?_⟩
  rw [bind_of_ok _ hsend, killPoint, read_bind, (hw.ready hr).1]
  rfl

variable (call) in
/-- A whole child process. -/
theorem stage_testProcess {t : TestCode ν} (ht : t.Plain x.cfg) {tc : TCaseId}
    (hcode : testCode s.heap tc t.tfun t.iter s.now = t) (hr : Ready s)
    (hf : s.proc.fstat = .fork) (hsr : forkStatusOf x.env s.sr.fstat = .fork)
    (hd : t.failure x.cfg = none → 0 ≤ (testDuration x t.now).toInt ∧
      Limited x.cfg.maxMsg [.duration (testDuration x t.now)]) :
    Stage (t.childStream x.cfg (testDuration x t.now)) (t.failure x.cfg).isSome ()
      (testProcess x call tc t.tfun t.iter) s := by
  have hset : s.heap.lists (.fixtures .chSflst tc) = t.setups := congrArg TestCode.setups hcode
  have htear : s.heap.lists (.fixtures .chTflst tc) = t.teardowns :=
    congrArg TestCode.teardowns hcode
  have hnow : s.now = t.now := congrArg TestCode.now hcode
  -- the four parts, each with the condition that the ones before did not fail
  have hstage : Stage ((.ctx .setup :: sentBy x.cfg t.now [] t.setups) ++
      if (firstFailure x.cfg t.now t.setups).isSome then []
      else (t.header ++ messages x.cfg t.body) ++
        if (failureOf x.cfg t.body).isSome then []
        else sentBy x.cfg t.now [.ctx .teardown] t.teardowns ++
          if (firstFailure x.cfg t.now t.teardowns).isSome then []
          else [.duration (testDuration x t.now)])
      ((firstFailure x.cfg t.now t.setups).isSome || ((failureOf x.cfg t.body).isSome ||
        ((firstFailure x.cfg t.now t.teardowns).isSome || false))) ()
      (testProcess x call tc t.tfun t.iter) s := by
    unfold testProcess
    refine (stage_tcaseRunCheckedSetup ht hset hnow hr hf hsr).bind fun hs s1 hw1 => ?_
    refine (stage_callTest ht (hw1.now.trans hnow) (hw1.ready hr) (hw1.fstat.trans hf)).bind
      fun hb s2 hw2 => ?_
    have hw := hw1.trans hw2
    have htear' : s2.heap.lists (.fixtures .chTflst tc) = t.teardowns := by
      rw [hw.heap]
      exact htear
    refine (stage_tcaseRunCheckedTeardown ht htear' (hw.now.trans hnow) (hw.ready hr)
      (hw.fstat.trans hf)).bind fun ht s3 hw3 => ?_
    have hnone : t.failure x.cfg = none :=
      (t.failure_eq_none x.cfg).mpr ⟨Option.not_isSome_iff_eq_none.mp (Bool.eq_false_iff.mp hs),
        Option.not_isSome_iff_eq_none.mp (Bool.eq_false_iff.mp hb),
        Option.not_isSome_iff_eq_none.mp (Bool.eq_false_iff.mp ht)⟩
    obtain ⟨s', hw', hrun⟩ := stage_duration (x := x) ((hw.trans hw3).ready hr) (hd hnone).1
      (hd hnone).2
    refine ⟨s', hw', ?_⟩
    rw [read_bind, (hw.trans hw3).now, hnow]
    exact hrun
  rw [TestCode.childStream, TestCode.mainStream, TestCode.failure]
  cases hs : firstFailure x.cfg t.now t.setups <;> cases hb : failureOf x.cfg t.body <;>
    cases ht : firstFailure x.cfg t.now t.teardowns <;>
    simpa only [hs, hb, ht, Option.isSome_some, Option.isSome_none, Bool.true_and, Bool.true_or,
      Bool.or_true, Bool.or_false, Bool.false_eq_true, if_true, if_false, List.append_nil,
      List.append_assoc] using hstage

variable (call) in
/-- A child process of which no function fails comes to its last part. -/
theorem testProcess_passed {t : TestCode ν} (ht : t.Plain x.cfg) {tc : TCaseId}
    (hcode : testCode s.heap tc t.tfun t.iter s.now = t) (hr : Ready s)
    (hf : s.proc.fstat = .fork) (hsr : forkStatusOf x.env s.sr.fstat = .fork)
    (hnone : t.failure x.cfg = none) :
    ∃ ms s3, Wrote ms s s3 ∧ testProcess x call tc t.tfun t.iter s =
      (do sendDurationInfo x (testDuration x s.now)
          killPoint) s3 := by
  have hset : s.heap.lists (.fixtures .chSflst tc) = t.setups := congrArg TestCode.setups hcode
  have htear : s.heap.lists (.fixtures .chTflst tc) = t.teardowns :=
    congrArg TestCode.teardowns hcode
  have hnow : s.now = t.now := congrArg TestCode.now hcode
  obtain ⟨hs, hb, hd⟩ : firstFailure x.cfg t.now t.setups = none ∧
      failureOf x.cfg t.body = none ∧ firstFailure x.cfg t.now t.teardowns = none :=
    (t.failure_eq_none x.cfg).mp hnone
  have hsetups : Stage _ _ _ (tcaseRunCheckedSetup x call tc) s :=
    stage_tcaseRunCheckedSetup ht hset hnow hr hf hsr
  obtain ⟨s1, hw1, h1⟩ := hsetups
  have hbody : Stage _ _ _ (unprotected (callTest x call t.tfun t.iter)) s1 :=
    stage_callTest ht (hw1.now.trans hnow) (hw1.ready hr) (hw1.fstat.trans hf)
  obtain ⟨s2, hw2, h2⟩ := hbody
  have hw := hw1.trans hw2
  have hteardowns : Stage _ _ _ (tcaseRunCheckedTeardown x call tc) s2 :=
    stage_tcaseRunCheckedTeardown ht (by rw [hw.heap]; exact htear) (hw.now.trans hnow)
      (hw.ready hr) (hw.fstat.trans hf)
  obtain ⟨s3, hw3, h3⟩ := hteardowns
  rw [hs, Option.isSome_none, if_neg (by decide)] at h1
  rw [hb, Option.isSome_none, if_neg (by decide)] at h2
  rw [hd, Option.isSome_none, if_neg (by decide)] at h3
  refine ⟨_, s3, hw.trans hw3, (bind_of_ok _ h1).trans ((bind_of_ok _ h2).trans
    ((bind_of_ok _ h3).trans ?_))⟩
  rw [read_bind, (hw.trans hw3).now]

/-! ## receiving -/

/-- Messages without a failure that the receiver can represent. -/
def NoFail (ms : List SendMsg) : Prop := ∀ m ∈ ms, m.NonNeg ∧ ∀ t, m ≠ .fail t

/-- Receiving messages that it can represent, among them a context. -/
theorem receiveTestResult_of_nonNeg {f : Pipe SendMsg} (hp : s.proc.getPipe = some f)
    (hnn : ∀ m ∈ f.content, m.NonNeg)
    (hctx : (received rcvmsgCreate f.content).lastctx ≠ .invalid) (w : Bool) :
    receiveTestResult x w s =
      .ok (constructTestResult (received rcvmsgCreate f.content) w) (s.onProc Proc.renew) := by
  rw [receiveTestResult_messages x hp, if_pos ⟨hnn, hctx⟩]

/-- The files of a parent whose child only wrote to them. -/
theorem SentTo.join {p q : Proc SendMsg} {ms : List SendMsg} {f : Pipe SendMsg}
    (h : SentTo p ms q) (hp : p.getPipe = some f) :
    (p.join q).getPipe = some { f with content := f.content ++ ms } := by
  obtain ⟨hf1, hf2⟩ := h
  cases e2 : p.sendFile2 with
  | none =>
      have e1 : p.sendFile1 = some f := by simpa only [Proc.getPipe, e2] using hp
      simp only [Proc.fwrite, e1, e2, Option.map_some] at hf1 hf2
      simp only [Proc.join, Proc.getPipe, e1, e2, hf1, hf2, sharedFile, if_true]
  | some g =>
      have hg : g = f := by simpa only [Proc.getPipe, e2, Option.some.injEq] using hp
      simp only [Proc.fwrite, e2] at hf2
      simp only [Proc.join, Proc.getPipe, e2, hf2, sharedFile, if_true, hg]

/-! ## results -/

/-- What the messages of a test leave in the receiver is what is reported. -/
theorem TestCode.reports_setNoforkInfo {t : TestCode ν} {r : RcvMsg} {tcname tname : CStr}
    {iter : Int} {d : Int32} (hset : firstFailure x.cfg t.now t.setups = none)
    (h : match failureOf x.cfg t.body, firstFailure x.cfg t.now t.teardowns with
      | some f, _ => r.Failed .test f
      | none, some f => r.Failed .teardown f
      | none, none => ∃ c, r.Clean c ∧ c ≠ .setup ∧ c ≠ .invalid ∧
          r.TestLoc (lastLoc t.tfun.ttest.loc t.body)) :
    t.Reports x.cfg tcname (setNoforkInfo { constructTestResult r false with
      tcname := some tcname, tname := some tname, iter := iter, duration := d }) := by
  rw [TestCode.Reports, TestCode.failure, hset]
  cases hb : failureOf x.cfg t.body with
  | some f =>
      rw [hb] at h
      rw [h.construct (by decide), setNoforkInfo, if_neg (Option.some_ne_none _)]
      exact ⟨rfl, rfl, rfl, rfl, rfl, rfl⟩
  | none =>
      cases hf : firstFailure x.cfg t.now t.teardowns with
      | some f =>
          rw [hb, hf] at h
          rw [h.construct (by decide), setNoforkInfo, if_neg (Option.some_ne_none _)]
          exact ⟨rfl, rfl, rfl, rfl, rfl, rfl⟩
      | none =>
          rw [hb, hf] at h
          obtain ⟨c, hc, hne, -, hloc⟩ := h
          rw [hc.construct hne hloc, setNoforkInfo, if_pos rfl]
          exact ⟨rfl, rfl, rfl, rfl, rfl, rfl⟩

/-- What a child process leaves in the receiver is what is reported, together
with its wait status, for an ordinary test. -/
theorem TestCode.reports_setForkInfo {t : TestCode ν} {r : RcvMsg} {tcname tname : CStr}
    {iter : Int} (alarm : Bool)
    (h : match t.failure x.cfg with
      | some (c, f) => c ≠ .invalid ∧ r.Failed c f
      | none => ∃ c, r.Clean c ∧ c ≠ .setup ∧ c ≠ .invalid ∧
          r.TestLoc (lastLoc t.tfun.ttest.loc t.body)) :
    t.Reports x.cfg tcname (setForkInfo x.cfg alarm
      { constructTestResult r (t.failure x.cfg).isSome with
        tcname := some tcname, tname := some tname, iter := iter }
      (.exited (if (t.failure x.cfg).isSome then 1 else 0)) 0 0) := by
  rw [TestCode.Reports]
  cases hf : t.failure x.cfg with
  | some cf =>
      obtain ⟨c, f⟩ := cf
      rw [hf] at h
      rw [h.2.construct h.1]
      exact ⟨rfl, rfl, rfl, rfl, rfl, rfl⟩
  | none =>
      rw [hf] at h
      obtain ⟨c, hc, hne, -, hloc⟩ := h
      rw [Option.isSome_none, hc.construct hne hloc]
      exact ⟨rfl, rfl, rfl, rfl, rfl, rfl⟩

/-- **A plain test in a child process** is reported as its code says. -/
theorem tcaseRunTfunFork_plain {t : TestCode ν} (ht : t.Plain x.cfg) {tc : TCaseId}
    (hcode : testCode s.heap tc t.tfun t.iter s.now = t) (hsig : t.tfun.signal = 0)
    (hexit : t.tfun.allowedExitValue = 0) (hf : s.proc.fstat = .fork)
    (hsr : forkStatusOf x.env s.sr.fstat = .fork) (hkill : x.env.kill s.now = none)
    (hd : t.failure x.cfg = none → 0 ≤ (testDuration x t.now).toInt ∧
      Limited x.cfg.maxMsg [.duration (testDuration x t.now)])
    {f : Pipe SendMsg} (hp : s.proc.getPipe = some f) (hold : NoFail f.content) :
    ∃ tr s', tcaseRunTfunFork x call tc t.tfun t.iter s = .ok tr s' ∧
      t.Reports x.cfg (s.heap.tcName tc) tr := by
  let c0 := s.onProc fun q => { q with killIn := x.env.kill s.now }
  have hready : Ready c0 := ⟨hkill, by rw [show c0.proc.getPipe = some f from hp]; rfl⟩
  obtain ⟨c1, hw, hrun⟩ := stage_testProcess call (s := c0) ht hcode hready hf hsr hd
  have hfork : forkChild x (testProcess x call tc t.tfun t.iter) s =
      .ok (.exited (if (t.failure x.cfg).isSome then 1 else 0)) (joinChild s c1) := by
    rw [forkChild, hrun]
    cases (t.failure x.cfg).isSome <;> rfl
  have hsent : SentTo c0.proc (t.childStream x.cfg (testDuration x t.now)) c1.proc :=
    ⟨hw.file1, hw.file2⟩
  have hpipe := (hsent.congr rfl rfl).join hp
  -- what the receiver finds
  obtain ⟨c, hclean⟩ := RcvMsg.clean_rcvmsgCreate.received fun m hm => (hold m hm).2
  have hrcv := TestCode.received_childStream x.cfg ht hclean (testDuration x t.now)
  rw [← received_append] at hrcv
  have hctx : (received rcvmsgCreate
      (f.content ++ t.childStream x.cfg (testDuration x t.now))).lastctx ≠ .invalid := by
    revert hrcv
    cases t.failure x.cfg with
    | some cf => exact fun h => h.2.lastctx
    | none =>
        rintro ⟨c, hc, -, hne, -⟩
        rw [hc.lastctx]
        exact hne
  have hnn : ∀ m ∈ f.content ++ t.childStream x.cfg (testDuration x t.now), m.NonNeg :=
    List.forall_mem_append.mpr
      ⟨fun m hm => (hold m hm).1, t.nonNeg_childStream x.cfg fun hnone => (hd hnone).1⟩
  have hreceive := receiveTestResult_of_nonNeg (x := x)
    (s := (joinChild s c1).onProc fun p => { p with alarmReceived := x.env.alarm s.now })
    hpipe hnn hctx (waserror (.exited (if (t.failure x.cfg).isSome then 1 else 0)) t.tfun.signal)
  have hwas : waserror (.exited (if (t.failure x.cfg).isSome then 1 else 0)) t.tfun.signal =
      (t.failure x.cfg).isSome := by
    cases (t.failure x.cfg).isSome <;> rfl
  rw [tcaseRunTfunFork, bind_of_ok _ hfork, read_bind, update_bind, read_bind,
    receiveResultInfoFork]
  refine ⟨_, _, bind_of_ok _ hreceive, ?_⟩
  rw [hwas, hsig, hexit]
  exact TestCode.reports_setForkInfo _ hrcv

/-! ## in the same process -/

/-- From `s` to `s'`, nothing happened but that a message file may have been
read and replaced; it holds no failure. -/
structure Settled (s s' : St List SendMsg ν) : Prop where
  memory : s'.memory = s.memory
  fstat : s'.proc.fstat = s.proc.fstat
  killIn : s'.proc.killIn = s.proc.killIn
  pipe : ∃ f, s'.proc.getPipe = some f ∧ NoFail f.content

theorem Settled.trans {s s' s'' : St List SendMsg ν} (h : Settled s s') (h' : Settled s' s'') :
    Settled s s'' :=
  ⟨h'.memory.trans h.memory, h'.fstat.trans h.fstat, h'.killIn.trans h.killIn, h'.pipe⟩

theorem settled_renew {ms : List SendMsg} {s s' : St List SendMsg ν} (h : Wrote ms s s')
    (hp : s'.proc.getPipe.isSome) : Settled s (s'.onProc Proc.renew) := by
  have hrenew : ∀ p : Proc SendMsg, p.getPipe.isSome →
      p.renew.fstat = p.fstat ∧ p.renew.killIn = p.killIn ∧
        p.renew.getPipe.map Pipe.content = some [] := by
    intro p hp
    cases e1 : p.sendFile1 <;> cases e2 : p.sendFile2 <;>
      simp [Proc.getPipe, Proc.renew, Proc.openFile1, Proc.openFile2, e1, e2] at hp ⊢
  obtain ⟨hfst, hkill, hpipe⟩ := hrenew s'.proc hp
  obtain ⟨f, hf, hnil⟩ := Option.map_eq_some_iff.mp hpipe
  refine ⟨h.memory, hfst.trans h.fstat, hkill.trans h.killIn, f, hf, ?_⟩
  rw [hnil]
  exact fun _ hm => absurd hm List.not_mem_nil

/-- What a setup returns: nothing, or the result that reports its failure. -/
def SetupReport (tcname tname : CStr) (failure : Option Failure) (r : Option TestResult) : Prop :=
  match failure with
  | none => r = none
  | some f => ∃ tr, r = some tr ∧ f.Reported .setup tr ∧ tr.tcname = some tcname ∧
      tr.tname = some tname

variable (call) in
/-- One plain setup. -/
theorem runSetup_plain (fl : FixtureList) (tcname tname : CStr) {f : Fixture ν}
    (hpf : PlainFun x.cfg (f.sfun.acts s.now)) (hctx : ∀ c, Limited x.cfg.maxMsg [.ctx c])
    (hf : s.proc.fstat ≠ .fork) (hkill : s.proc.killIn = none) {g : Pipe SendMsg}
    (hp : s.proc.getPipe = some g) (hold : NoFail g.content) :
    ∃ r s', runSetup x call fl .nofork tcname tname f s = .ok r s' ∧ Settled s s' ∧
      SetupReport tcname tname (failureOf x.cfg (f.sfun.acts s.now)) r := by
  have hr : Ready s := ⟨hkill, by rw [hp]; rfl⟩
  have hsend : sendCtxInfo x .setup s = .ok () (s.onProc (Proc.fwrite [.ctx .setup])) :=
    sendMsg_of_ready hr (nonNeg_ctx _) (hctx _)
  have hw1 := wrote_fwrite [.ctx .setup] s
  obtain ⟨s2, hw2, hprot⟩ := protect_of_leave (x := x) (f := callFixture x call fl f)
    (s := s.onProc (Proc.fwrite [.ctx .setup]))
    (messages x.cfg (f.sfun.acts s.now)) (failureOf x.cfg (f.sfun.acts s.now)).isSome (by
      intro s1 hw
      have hnow : s1.now = s.now := hw.now.trans hw1.now
      rw [← hnow] at hpf ⊢
      exact callFixture_plain call fl hpf.1 (hw.ready (hw1.ready hr)) hpf.2)
  have hw := hw1.trans hw2
  have hcall : ∃ b, protect x (callFixture x call fl f) (s.onProc (Proc.fwrite [.ctx .setup])) =
      .ok b s2 := by
    rw [hprot, hw1.fstat, if_neg hf]
    cases (failureOf x.cfg (f.sfun.acts s.now)).isSome
    · exact ⟨_, rfl⟩
    · exact ⟨_, rfl⟩
  obtain ⟨b, hcall⟩ := hcall
  -- what the receiver finds
  obtain ⟨c, hclean⟩ := RcvMsg.clean_rcvmsgCreate.received fun m hm => (hold m hm).2
  have hrcv := (hclean.updateCtx .setup).messages x.cfg hpf.1 (by decide)
  have hsplit : received (rcvmsgUpdateCtx (received rcvmsgCreate g.content) .setup)
      (messages x.cfg (f.sfun.acts s.now)) =
        received rcvmsgCreate (g.content ++ ([.ctx .setup] ++ messages x.cfg
          (f.sfun.acts s.now))) := by
    rw [received_append, received_append]
    rfl
  rw [hsplit] at hrcv
  have hpipe := hw.getPipe hp
  have hnn : ∀ m ∈ g.content ++ ([.ctx .setup] ++ messages x.cfg (f.sfun.acts s.now)), m.NonNeg :=
    List.forall_mem_append.mpr ⟨fun m hm => (hold m hm).1,
      List.forall_mem_cons.mpr ⟨nonNeg_ctx _, nonNeg_messages _ _⟩⟩
  have hlast : (received rcvmsgCreate
      (g.content ++ ([.ctx .setup] ++ messages x.cfg (f.sfun.acts s.now)))).lastctx ≠ .invalid := by
    revert hrcv
    cases failureOf x.cfg (f.sfun.acts s.now) with
    | some f => exact fun h => h.lastctx
    | none =>
        intro h
        rw [h.lastctx]
        decide
  have hreceive := receiveTestResult_of_nonNeg (x := x) hpipe hnn hlast false
  have hsettled : Settled s (s2.onProc Proc.renew) := settled_renew hw (by rw [hpipe]; rfl)
  have hinfo := bind_of_ok (fun tr => pure (setNoforkInfo
    { tr with tcname := some tcname, tname := some tname, iter := 0, duration := -1 } ) :
      TestResult → RunM List SendMsg ν TestResult) hreceive
  rw [runSetup, if_pos rfl, bind_of_ok _ hsend, bind_of_ok _ hcall, receiveResultInfoNofork,
    bind_of_ok _ hinfo]
  cases hfail : failureOf x.cfg (f.sfun.acts s.now) with
  | none =>
      rw [hfail] at hrcv
      refine ⟨none, _, ?_, hsettled, rfl⟩
      rw [setNoforkInfo, if_pos ((RcvMsg.msg_construct _ _).trans hrcv.msg)]
      rfl
  | some e =>
      rw [hfail] at hrcv
      rw [hrcv.construct (by decide), setNoforkInfo, if_neg (Option.some_ne_none _)]
      exact ⟨_, _, rfl, hsettled, _, rfl, ⟨rfl, rfl, rfl, rfl, rfl⟩, rfl, rfl⟩

variable (call) in
/-- A list of plain setups, run one after the other until one fails. -/
theorem findSomeM_runSetup_plain (fl : FixtureList) (tcname tname : CStr)
    {fs : List (Fixture ν)} (hpf : ∀ f ∈ fs, PlainFun x.cfg (f.sfun.acts s.now))
    (hctx : ∀ c, Limited x.cfg.maxMsg [.ctx c]) (hf : s.proc.fstat ≠ .fork)
    (hkill : s.proc.killIn = none) {g : Pipe SendMsg} (hp : s.proc.getPipe = some g)
    (hold : NoFail g.content) :
    ∃ r s', fs.findSomeM? (runSetup x call fl .nofork tcname tname) s = .ok r s' ∧ Settled s s' ∧
      SetupReport tcname tname (firstFailure x.cfg s.now fs) r := by
  induction fs generalizing s g with
  | nil => exact ⟨none, s, rfl, ⟨rfl, rfl, rfl, g, hp, hold⟩, rfl⟩
  | cons f fs ih =>
      obtain ⟨r1, s1, hrun, hset1, hrep⟩ := runSetup_plain call fl tcname tname
        (hpf f List.mem_cons_self) hctx hf hkill hp hold
      have hnow : s1.now = s.now := congrArg (fun m => m.2.2) hset1.memory
      rw [List.findSomeM?, bind_of_ok _ hrun, firstFailure, List.findSome?_cons]
      cases hfail : failureOf x.cfg (f.sfun.acts s.now) with
      | some e =>
          rw [hfail] at hrep
          obtain ⟨tr, rfl, htr⟩ := hrep
          exact ⟨some tr, s1, rfl, hset1, tr, rfl, htr⟩
      | none =>
          rw [hfail] at hrep
          cases hrep
          obtain ⟨g1, hp1, hold1⟩ := hset1.pipe
          have hrest := ih (s := s1) (g := g1)
            (by rw [hnow]; exact fun h hh => hpf h (List.mem_cons_of_mem f hh))
            (by rw [hset1.fstat]; exact hf) (hset1.killIn.trans hkill) hp1 hold1
          rw [hnow] at hrest
          obtain ⟨r, s2, hrun2, hset2, hrep2⟩ := hrest
          exact ⟨r, s2, hrun2, hset1.trans hset2, hrep2⟩

variable (call) in
/-- Plain setups in the same process. -/
theorem srunnerRunSetup_plain (fl : FixtureList) (tc : TCaseId) (tcname tname : CStr)
    (hpf : ∀ f ∈ s.heap.lists (.fixtures fl tc), PlainFun x.cfg (f.sfun.acts s.now))
    (hctx : ∀ c, Limited x.cfg.maxMsg [.ctx c]) (hf : s.proc.fstat ≠ .fork)
    (hkill : s.proc.killIn = none) {g : Pipe SendMsg} (hp : s.proc.getPipe = some g)
    (hold : NoFail g.content) :
    ∃ r s', srunnerRunSetup x call fl tc .nofork tcname tname s = .ok r s' ∧ Settled s s' ∧
      SetupReport tcname tname
        (firstFailure x.cfg s.now (s.heap.lists (.fixtures fl tc))) r :=
  findSomeM_runSetup_plain call fl tcname tname hpf hctx hf hkill hp hold

variable (call) in
/-- The test function and the teardowns in the same process: a failure does not
keep the teardowns from running. -/
theorem main_plain {t : TestCode ν} (ht : t.Plain x.cfg) {tc : TCaseId}
    (htear : s.heap.lists (.fixtures .chTflst tc) = t.teardowns) (hnow : s.now = t.now)
    (hf : s.proc.fstat ≠ .fork) (hkill : s.proc.killIn = none) {g : Pipe SendMsg}
    (hp : s.proc.getPipe = some g) (hold : NoFail g.content)
    (hset : firstFailure x.cfg t.now t.setups = none) :
    ∃ tr s', (do
        let _ ← protect x (callTest x call t.tfun t.iter)
        tcaseRunCheckedTeardown x call tc
        let name ← read fun s => s.heap.tcName tc
        let now ← read fun s => s.now
        receiveResultInfoNofork x name t.tfun.ttest.name t.iter (testDuration x now) :
          RunM List SendMsg ν TestResult) s = .ok tr s' ∧ Settled s s' ∧
      t.Reports x.cfg (s.heap.tcName tc) tr := by
  have hr : Ready s := ⟨hkill, by rw [hp]; rfl⟩
  obtain ⟨s1, hw1, hprot⟩ := protect_of_leave (x := x) (f := callTest x call t.tfun t.iter)
    (s := s) (t.header ++ messages x.cfg t.body) (failureOf x.cfg t.body).isSome
    fun s1 hw => callTest_plain call ht (hw.ready hr) (hw.now.trans hnow)
  have hcall : ∃ b, protect x (callTest x call t.tfun t.iter) s = .ok b s1 := by
    rw [hprot, if_neg hf]
    cases (failureOf x.cfg t.body).isSome
    · exact ⟨_, rfl⟩
    · exact ⟨_, rfl⟩
  obtain ⟨b, hcall⟩ := hcall
  have htear1 : s1.heap.lists (.fixtures .chTflst tc) = t.teardowns := by
    rw [hw1.heap]
    exact htear
  obtain ⟨s2, hw2, htd⟩ := srunnerRunTeardown_plain call (s := s1) .chTflst tc
    (by rw [htear1]; exact ht.teardowns) ht.ctx (hw1.ready hr) (hw1.now.trans hnow)
  have htd : tcaseRunCheckedTeardown x call tc s1 = .ok () s2 := by
    refine htd.trans (if_neg fun h => hf ?_)
    rw [← hw1.fstat]
    exact h.2
  rw [htear1] at hw2
  have hw := hw1.trans hw2
  have hstream : (t.header ++ messages x.cfg t.body) ++
      sentBy x.cfg t.now [.ctx .teardown] t.teardowns = t.mainStream x.cfg false := rfl
  rw [hstream] at hw
  -- what the receiver finds
  obtain ⟨c, hclean⟩ := RcvMsg.clean_rcvmsgCreate.received fun m hm => (hold m hm).2
  have hrcv := TestCode.received_mainStream x.cfg ht hclean false
  rw [← received_append] at hrcv
  have hlast : (received rcvmsgCreate (g.content ++ t.mainStream x.cfg false)).lastctx ≠
      .invalid := by
    revert hrcv
    cases failureOf x.cfg t.body with
    | some f => exact fun h => h.lastctx
    | none =>
        cases firstFailure x.cfg t.now t.teardowns with
        | some f => exact fun h => h.lastctx
        | none =>
            rintro ⟨c, hc, -, hne, -⟩
            rw [hc.lastctx]
            exact hne
  have hnn : ∀ m ∈ g.content ++ t.mainStream x.cfg false, m.NonNeg :=
    List.forall_mem_append.mpr ⟨fun m hm => (hold m hm).1, t.nonNeg_mainStream x.cfg false⟩
  have hpipe := hw.getPipe hp
  have hreceive := receiveTestResult_of_nonNeg (x := x) hpipe hnn hlast false
  have hsettled : Settled s (s2.onProc Proc.renew) := settled_renew hw (by rw [hpipe]; rfl)
  rw [bind_of_ok _ hcall, bind_of_ok _ htd, read_bind, read_bind, receiveResultInfoNofork]
  refine ⟨_, _, bind_of_ok _ hreceive, hsettled, ?_⟩
  rw [hw.heap]
  exact TestCode.reports_setNoforkInfo hset hrcv

variable (call) in
/-- **A plain test in the same process** is reported as its code says, and
leaves no failure behind. -/
theorem tcaseRunTfunNofork_plain {t : TestCode ν} (ht : t.Plain x.cfg) {tc : TCaseId}
    (hcode : testCode s.heap tc t.tfun t.iter s.now = t) (hf : s.proc.fstat ≠ .fork)
    (hsr : forkStatusOf x.env s.sr.fstat = .nofork) (hkill : s.proc.killIn = none)
    {g : Pipe SendMsg} (hp : s.proc.getPipe = some g) (hold : NoFail g.content) :
    ∃ tr s', tcaseRunTfunNofork x call tc t.tfun t.iter s = .ok tr s' ∧ Settled s s' ∧
      t.Reports x.cfg (s.heap.tcName tc) tr := by
  have hset : s.heap.lists (.fixtures .chSflst tc) = t.setups := congrArg TestCode.setups hcode
  have htear : s.heap.lists (.fixtures .chTflst tc) = t.teardowns :=
    congrArg TestCode.teardowns hcode
  have hnow : s.now = t.now := congrArg TestCode.now hcode
  obtain ⟨r1, s1, hrun1, hset1, hrep⟩ := srunnerRunSetup_plain call .chSflst tc
    (s.heap.tcName tc) (.lit "checked_setup") (by rw [hset, hnow]; exact ht.setups) ht.ctx hf hkill
    hp hold
  have hstart : tcaseRunCheckedSetup x call tc s = .ok r1 s1 := by
    rw [tcaseRunCheckedSetup, srunnerForkStatus, read_bind, read_bind, hsr]
    exact hrun1
  rw [hset, hnow] at hrep
  rw [tcaseRunTfunNofork, bind_of_ok _ hstart]
  cases hsf : firstFailure x.cfg t.now t.setups with
  | some e =>
      rw [hsf] at hrep
      obtain ⟨tr, rfl, hreported, htcname, -⟩ := hrep
      refine ⟨tr, s1, rfl, hset1, htcname, ?_⟩
      rw [TestCode.failure, hsf]
      exact hreported
  | none =>
      rw [hsf] at hrep
      cases hrep
      obtain ⟨g1, hp1, hold1⟩ := hset1.pipe
      have hheap : s1.heap = s.heap := congrArg (fun m => m.1) hset1.memory
      obtain ⟨tr, s2, hrun2, hset2, hreports⟩ := main_plain call (s := s1) ht
        (by rw [hheap]; exact htear) ((congrArg (fun m => m.2.2) hset1.memory).trans hnow)
        (by rw [hset1.fstat]; exact hf) (hset1.killIn.trans hkill) hp1 hold1 hsf
      rw [hheap] at hreports
      exact ⟨tr, s2, hrun2, hset1.trans hset2, hreports⟩

end

/-! ## the code -/

section

variable {x : Ctx} {s : St CkList UInt8 NestedRun} {tc : TCaseId} {tfun : TF NestedRun} {i : Int}
  {old : List SendMsg}

/-- A plain test in a child process of the code. -/
theorem reports_fork (ht : (testCode s.heap tc tfun i s.now).Plain x.cfg) (hsig : tfun.signal = 0)
    (hexit : tfun.allowedExitValue = 0) (hf : s.proc.fstat = .fork)
    (hsr : forkStatusOf x.env s.sr.fstat = .fork) (hkill : x.env.kill s.now = none)
    (hd : (testCode s.heap tc tfun i s.now).failure x.cfg = none →
      0 ≤ (testDuration x s.now).toInt ∧
        Limited x.cfg.maxMsg [.duration (testDuration x s.now)])
    (hpipe : PipeHolds x.cfg s.proc old) (hold : NoFail old) :
    ∃ tr s', tcaseRunTfunFork x (runNested x) tc tfun i s = .ok tr s' ∧
      (testCode s.heap tc tfun i s.now).Reports x.cfg (s.heap.tcName tc) tr := by
  obtain ⟨t, f, hst, hp, hc⟩ := hpipe.exists_stRel
  rw [← hc] at hold
  have hrun : ∃ tr t', tcaseRunTfunFork x (runNested x) tc tfun i t = .ok tr t' ∧
      (testCode s.heap tc tfun i s.now).Reports x.cfg (s.heap.tcName tc) tr := by
    cases hst with
    | mk _ _ => exact tcaseRunTfunFork_plain ht rfl hsig hexit hf hsr hkill hd hp hold
  obtain ⟨tr, t', ht', hrep⟩ := hrun
  obtain ⟨s', hs', -⟩ := (sim_tcaseRunTfunFork (x := x) (sparesCase_runNested _)
      (sim_runNested _) tc tfun
    i).to_ok hst ht'
  exact ⟨tr, s', hs', hrep⟩

/-- A plain test in the same process of the code. -/
theorem reports_nofork (ht : (testCode s.heap tc tfun i s.now).Plain x.cfg)
    (hf : s.proc.fstat ≠ .fork) (hsr : forkStatusOf x.env s.sr.fstat = .nofork)
    (hkill : s.proc.killIn = none) (hpipe : PipeHolds x.cfg s.proc old) (hold : NoFail old) :
    ∃ tr s', tcaseRunTfunNofork x (runNested x) tc tfun i s = .ok tr s' ∧
      (testCode s.heap tc tfun i s.now).Reports x.cfg (s.heap.tcName tc) tr := by
  obtain ⟨t, f, hst, hp, hc⟩ := hpipe.exists_stRel
  rw [← hc] at hold
  have hrun : ∃ tr t', tcaseRunTfunNofork x (runNested x) tc tfun i t = .ok tr t' ∧
      (testCode s.heap tc tfun i s.now).Reports x.cfg (s.heap.tcName tc) tr := by
    cases hst with
    | mk _ _ =>
        obtain ⟨tr, t', hrun, -, hrep⟩ := tcaseRunTfunNofork_plain (runNested x)
          (t := testCode s.heap tc tfun i s.now) ht rfl hf hsr hkill hp hold
        exact ⟨tr, t', hrun, hrep⟩
  obtain ⟨tr, t', ht', hrep⟩ := hrun
  obtain ⟨s', hs', -⟩ := (sim_tcaseRunTfunNofork (x := x) (sparesCase_runNested _)
      (sim_runNested _) tc
    tfun i).to_ok hst ht'
  exact ⟨tr, s', hs', hrep⟩

theorem forkStatusOf_cases (env : Env) (fstat : ForkStatus) :
    forkStatusOf env fstat = .fork ∨ forkStatusOf env fstat = .nofork := by
  cases fstat with
  | fork => exact .inl rfl
  | nofork => exact .inr rfl
  | getenv =>
      rw [forkStatusOf]
      cases env.getenv .ckFork with
      | none => exact .inl rfl
      | some v =>
          by_cases h : v = .lit "no"
          · exact .inr (if_pos h)
          · exact .inl (if_neg h)

/-- **The first failing assertion is what gets reported**, in both modes.  The
test is an ordinary one (no signal expected, exit value 0), its functions are
plain and their messages within the limit, nobody kills the process, and no
failure is left in the message file. -/
theorem tcaseRunTfun_first_failure (ht : (testCode s.heap tc tfun i s.now).Plain x.cfg)
    (hsig : tfun.signal = 0) (hexit : tfun.allowedExitValue = 0)
    (hmode : s.proc.fstat = forkStatusOf x.env s.sr.fstat) (hkill : s.proc.killIn = none)
    (hkill' : x.env.kill s.now = none) (hpipe : PipeHolds x.cfg s.proc old) (hold : NoFail old)
    {c : CkResultCtx} {f : Failure}
    (hf : (testCode s.heap tc tfun i s.now).failure x.cfg = some (c, f)) :
    ∃ tr s', tcaseRunTfun x (runNested x) tc tfun i s = .ok tr s' ∧ tr.rtype = .failure ∧
      tr.ctx = c ∧ tr.msg = some f.text ∧ tr.file = some f.loc.file ∧ tr.line = f.loc.line := by
  rw [tcaseRunTfun, srunnerForkStatus, read_bind]
  rcases forkStatusOf_cases x.env s.sr.fstat with hsr | hsr
  · obtain ⟨tr, s', hrun, -, hrep⟩ := reports_fork ht hsig hexit (hmode.trans hsr) hsr hkill'
      (fun hnone => absurd (hf.symm.trans hnone) (by simp)) hpipe hold
    rw [hf] at hrep
    rw [hsr]
    exact ⟨tr, s', hrun, hrep⟩
  · have hne : s.proc.fstat ≠ .fork := by
      rw [hmode, hsr]
      decide
    obtain ⟨tr, s', hrun, -, hrep⟩ := reports_nofork ht hne hsr hkill hpipe hold
    rw [hf] at hrep
    rw [hsr]
    exact ⟨tr, s', hrun, hrep⟩

/-- A test that fails, with a teardown that fails too. -/
def Sample.failingTwice : Sample.Case NestedRun :=
  ⟨fun fl => if fl = .chTflst then [Sample.fixture [Sample.fail]] else [],
    [Sample.test [.markPoint Sample.loc, Sample.fail]], none⟩

theorem Sample.plain_failingTwice :
    (testCode (Sample.heap [Sample.failingTwice] : Heap CkList NestedRun) 0
      (Sample.test [.markPoint Sample.loc, Sample.fail]) 0 ⟨0, 0⟩).Plain Sample.cfg where
  setups f hf := absurd hf List.not_mem_nil
  body := ⟨.markPoint _ (.assertFailed _ _ _), by decide⟩
  teardowns f hf := by
    have hf : f ∈ (Lists.ofElems [Sample.fixture [Sample.fail]] : CkList _).elems := hf
    rw [elems_ofElems, List.mem_singleton] at hf
    rw [hf]
    exact ⟨.assertFailed _ _ _, by decide⟩
  header := by decide
  ctx c := List.forall_mem_singleton.mpr (show 8 ≤ 64 ∧ 8 ≤ intMax by decide)

theorem Sample.pipeHolds_running (cases : List (Sample.Case ν)) (fstat : ForkStatus) :
    PipeHolds Sample.cfg (Sample.running cases fstat).proc [] where
  legible :=
    ⟨fun f hf => ⟨[], fun _ hm => absurd hm List.not_mem_nil, by cases hf; rfl⟩,
      fun f hf => nomatch hf⟩
  limited _ hm := absurd hm List.not_mem_nil
  content := rfl

/-- Such a test, in both modes: the teardown does not run in a child process, and
is not what is reported otherwise. -/
theorem tcaseRunTfun_first_failure_failingTwice :
    (∃ tr s', tcaseRunTfun Sample.ctx (runNested Sample.ctx) 0
        (Sample.test [.markPoint Sample.loc, Sample.fail]) 0
        (Sample.running [Sample.failingTwice] .nofork) = .ok tr s' ∧ tr.rtype = .failure ∧
      tr.ctx = .test ∧ tr.msg = some (.lit "x == y") ∧ tr.file = some (.lit "t.c") ∧ tr.line = 7) ∧
    ∃ tr s', tcaseRunTfun Sample.ctx (runNested Sample.ctx) 0
        (Sample.test [.markPoint Sample.loc, Sample.fail]) 0
        (Sample.running [Sample.failingTwice] .fork) = .ok tr s' ∧ tr.rtype = .failure ∧
      tr.ctx = .test ∧ tr.msg = some (.lit "x == y") ∧ tr.file = some (.lit "t.c") ∧
        tr.line = 7 := by
  have hnil : NoFail [] := fun _ hm => absurd hm List.not_mem_nil
  exact ⟨tcaseRunTfun_first_failure (x := Sample.ctx)
      (s := Sample.running [Sample.failingTwice] .nofork) (c := .test)
      (f := ⟨Sample.loc, .lit "x == y"⟩) Sample.plain_failingTwice rfl rfl rfl rfl rfl
      (Sample.pipeHolds_running _ _) hnil rfl,
    tcaseRunTfun_first_failure (x := Sample.ctx)
      (s := Sample.running [Sample.failingTwice] .fork) (c := .test)
      (f := ⟨Sample.loc, .lit "x == y"⟩) Sample.plain_failingTwice rfl rfl rfl rfl rfl
      (Sample.pipeHolds_running _ _) hnil rfl⟩

/-- The state with another fork status. -/
def St.withFork {L : Type → Type} {β ν : Type} (fstat : ForkStatus) (s : St L β ν) : St L β ν :=
  { s with proc := { s.proc with fstat := fstat }, sr := { s.sr with fstat := fstat } }

/-- `tcase_run_tfun_fork` and `tcase_run_tfun_nofork`, started in the state with the fork
status of the one and of the other, report the same. -/
def ModesAgree (x : Ctx) (env : Env) (tc : TCaseId) (tfun : TF NestedRun) (i : Int)
    (s : St CkList UInt8 NestedRun) : Prop :=
  ∃ tr₁ s₁ tr₂ s₂,
    tcaseRunTfunFork x (runNested x) tc tfun i (s.withFork .fork) = .ok tr₁ s₁ ∧
    tcaseRunTfunNofork { x with env := env } (runNested { x with env := env }) tc tfun i
      (s.withFork .nofork) = .ok tr₂ s₂ ∧
    tr₁.rtype = tr₂.rtype ∧ tr₁.ctx = tr₂.ctx ∧ tr₁.msg = tr₂.msg ∧ tr₁.file = tr₂.file ∧
    tr₁.line = tr₂.line ∧ tr₁.tcname = tr₂.tcname

theorem PipeHolds.withFork (h : PipeHolds x.cfg s.proc old) (fstat : ForkStatus) :
    PipeHolds x.cfg (s.withFork fstat).proc old :=
  ⟨⟨h.legible.file1, h.legible.file2⟩, h.limited, h.content⟩

/-- The modes agree on an ordinary test of plain functions whose duration, if its process gets
so far, can be sent. -/
theorem modesAgree_of_sendable (ht : (testCode s.heap tc tfun i s.now).Plain x.cfg)
    (hsig : tfun.signal = 0) (hexit : tfun.allowedExitValue = 0) (hkill : s.proc.killIn = none)
    (hkill' : x.env.kill s.now = none)
    (hd : (testCode s.heap tc tfun i s.now).failure x.cfg = none →
      0 ≤ (testDuration x s.now).toInt ∧ Limited x.cfg.maxMsg [.duration (testDuration x s.now)])
    (hpipe : PipeHolds x.cfg s.proc []) (env : Env) : ModesAgree x env tc tfun i s := by
  have hnil : NoFail [] := fun _ hm => absurd hm List.not_mem_nil
  obtain ⟨tr₁, s₁, hrun₁, hrep₁⟩ := reports_fork
      (s := s.withFork .fork) ht hsig hexit rfl rfl hkill'
    hd (hpipe.withFork _) hnil
  obtain ⟨tr₂, s₂, hrun₂, hrep₂⟩ := reports_nofork (x := { x with env := env })
    (s := s.withFork .nofork) ht (fun h => nomatch h) rfl hkill (hpipe.withFork _) hnil
  exact ⟨tr₁, s₁, tr₂, s₂, hrun₁, hrun₂, hrep₁.agree hrep₂⟩

end

end LibCheck
