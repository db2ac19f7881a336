import LibCheck.Brackets
import LibCheck.Report

/-!
# LibCheck.Pipes

The two message files as a stack (`check_msg.c`).

`setup_pipe` and `teardown_pipe` know the level of nesting only from which of
the two files is open, and `receive_test_result` closes and reopens the inner
one.  Here they are run in any order that is properly nested, and compared with
the history of these operations: each level has just the messages that were sent
on it since they were last received.

* `runOps` — a sequence of operations.
* `Allowed` — which operation is accepted after which history.
* `messaging_stack` — the comparison.
-/

namespace LibCheck

open Prog LibCheck.Bracket

/-- The operations on the message files: `enter` is `setup_messaging`, `put` one
of the senders, `take` is `receive_test_result`, with its argument, and `leave`
is `teardown_messaging`. -/
abbrev MsgOp := Bracket SendMsg Bool

section

variable {L : Type → Type} {β ν : Type} [Wire β]

/-- One operation, with the result that it received, if any. -/
def runOp (x : Ctx) : MsgOp → RunM L β ν (Option TestResult)
  | .enter => do
      setupMessaging
      pure none
  | .put m => do
      sendMsg x m
      pure none
  | .take waserror => do
      let tr ← receiveTestResult x waserror
      pure (some tr)
  | .leave => do
      teardownMessaging
      pure none

/-- A sequence of operations, with the results that were received. -/
def runOps (x : Ctx) : List MsgOp → RunM L β ν (List TestResult)
  | [] => pure []
  | op :: ops => do
      let tr ← runOp x op
      let trs ← runOps x ops
      pure (tr.toList ++ trs)

theorem runOps_append (x : Ctx) (ops ops' : List MsgOp) :
    runOps x (ops ++ ops') = (do
      let trs ← runOps x ops
      let trs' ← runOps x ops'
      pure (trs ++ trs') : RunM L β ν (List TestResult)) := by
  induction ops with
  | nil => simp [runOps]
  | cons op ops ih =>
      simp only [runOps, List.cons_append, ih, bind_assoc, pure_bind, List.append_assoc]

/-- One more operation. -/
theorem runOps_concat (x : Ctx) (ops : List MsgOp) (op : MsgOp) :
    runOps x (ops ++ [op]) = (do
      let trs ← runOps x ops
      let tr ← runOp x op
      pure (trs ++ tr.toList) : RunM L β ν (List TestResult)) := by
  simp [runOps_append, runOps]

end

/-! ## the specification -/

/-- The operations that are accepted after the history `ops`: there are two
levels, a message must be accepted by `ppack`, and there is no result without a
context. -/
def Allowed (cfg : Config) (ops : List MsgOp) : MsgOp → Prop
  | .enter => depth ops < 2
  | .put m => ∃ data, ppack cfg.sz cfg.maxMsg m = .ok data
  | .take _ => ∃ c, lastCtx (pending 0 ops) = some c ∧ c ≠ .invalid
  | .leave => True

instance (cfg : Config) (ops : List MsgOp) (op : MsgOp) : Decidable (Allowed cfg ops op) :=
  match op with
  | .enter => inferInstanceAs (Decidable (depth ops < 2))
  | .put m =>
      match h : ppack cfg.sz cfg.maxMsg m with
      | .ok data => isTrue ⟨data, h⟩
      | .error _ => isFalse (by simp [Allowed, h])
  | .take _ =>
      decidable_of_iff ((lastCtx (pending 0 ops)).any (· ≠ .invalid)) (by
        simp [Allowed, Option.any_eq_true])
  | .leave => isTrue trivial

/-- The results that are received, each of them from the messages that are
pending; the last operation comes first. -/
def resultsBack : List MsgOp → List TestResult
  | [] => []
  | .take waserror :: ops =>
      resultsBack ops ++
        [constructTestResult (received rcvmsgCreate (pendingBack 0 ops)) waserror]
  | _ :: ops => resultsBack ops

/-- The results that a sequence of operations receives. -/
def results (ops : List MsgOp) : List TestResult := resultsBack ops.reverse

@[simp] theorem results_take (ops : List MsgOp) (w : Bool) :
    results (ops ++ [.take w]) =
      results ops ++ [constructTestResult (received rcvmsgCreate (pending 0 ops)) w] := by
  simp [results, resultsBack, pending]

@[simp] theorem results_of_not_take {op : MsgOp} (h : ∀ w, op ≠ .take w) (ops : List MsgOp) :
    results (ops ++ [op]) = results ops := by
  cases op with
  | take w => exact absurd rfl (h w)
  | _ => simp [results, resultsBack]

/-! ## the stack -/

/-- The message files after the history `ops`: as many are open as there are
levels, the inner ones last, and each holds what is pending on its level. -/
def FilesHold (ops : List MsgOp) (p : Proc SendMsg) : Prop :=
  match depth ops with
  | 0 => p.sendFile1 = none ∧ p.sendFile2 = none
  | 1 => p.sendFile1.map Pipe.content = some (pending 0 ops) ∧ p.sendFile2 = none
  | 2 => p.sendFile1.map Pipe.content = some (pending 1 ops) ∧
      p.sendFile2.map Pipe.content = some (pending 0 ops)
  | _ => False

/-- The current file is that of the innermost level. -/
theorem FilesHold.getPipe {ops : List MsgOp} {p : Proc SendMsg} (h : FilesHold ops p)
    (hpos : 0 < depth ops) : ∃ f, p.getPipe = some f ∧ f.content = pending 0 ops := by
  unfold FilesHold at h
  split at h
  · omega
  · obtain ⟨f, hf, hc⟩ := Option.map_eq_some_iff.mp h.1
    exact ⟨f, by simp [Proc.getPipe, h.2, hf], hc⟩
  · obtain ⟨f, hf, hc⟩ := Option.map_eq_some_iff.mp h.2
    exact ⟨f, by simp [Proc.getPipe, hf], hc⟩
  · exact h.elim

theorem FilesHold.file1_of_file2 {ops : List MsgOp} {p : Proc SendMsg} (h : FilesHold ops p)
    (h2 : p.sendFile2.isSome) : p.sendFile1.isSome := by
  unfold FilesHold at h
  split at h
  · simp [h.2] at h2
  · simp [h.2] at h2
  · obtain ⟨f, hf, -⟩ := Option.map_eq_some_iff.mp h.1
    simp [hf]
  · exact h.elim

/-- What one operation does to the files, or the error in which it ends. -/
def StepsTo (x : Ctx) (ops : List MsgOp) (op : MsgOp) (s : St List SendMsg ν) : Prop :=
  (Allowed x.cfg ops op ∧ ∃ tr s', runOp x op s = .ok tr s' ∧
      results (ops ++ [op]) = results ops ++ tr.toList ∧ FilesHold (ops ++ [op]) s'.proc ∧
      s'.proc.killIn = none) ∨
    (¬ Allowed x.cfg ops op ∧ ∃ s', runOp x op s = .error (.exited 2) s')

section

variable {x : Ctx} {ops : List MsgOp} {s : St List SendMsg ν} (h : FilesHold ops s.proc)
  (hkill : s.proc.killIn = none)
include h hkill

theorem stepsTo_enter : StepsTo x ops .enter s := by
  have hres : results (ops ++ [.enter]) = results ops := results_of_not_take (by simp) ops
  unfold FilesHold at h
  split at h
  · next hd =>
      refine .inl ⟨by simp [Allowed, hd], none, s.onProc Proc.openFile1,
        ?_, by simp [hres], ?_, hkill⟩
      · simp [runOp, setupMessaging, setupPipe, bind_apply, h.1]
      · simp [FilesHold, hd, St.onProc, Proc.openFile1, h.2]
  · next hd =>
      obtain ⟨f, hf, hc⟩ := Option.map_eq_some_iff.mp h.1
      refine .inl ⟨by simp [Allowed, hd], none, s.onProc Proc.openFile2,
        ?_, by simp [hres], ?_, hkill⟩
      · simp [runOp, setupMessaging, setupPipe, bind_apply, hf, h.2]
      · simp [FilesHold, hd, St.onProc, Proc.openFile2, hf, hc]
  · next hd =>
      obtain ⟨f, hf, -⟩ := Option.map_eq_some_iff.mp h.1
      obtain ⟨g, hg, -⟩ := Option.map_eq_some_iff.mp h.2
      refine .inr ⟨by simp [Allowed, hd], s, ?_⟩
      simp [runOp, setupMessaging, setupPipe, bind_apply, eprintf, hf, hg]
  · exact h.elim

theorem stepsTo_leave (hpos : 0 < depth ops) : StepsTo x ops .leave s := by
  have hres : results (ops ++ [.leave]) = results ops := results_of_not_take (by simp) ops
  unfold FilesHold at h
  split at h
  · omega
  · next hd =>
      obtain ⟨f, hf, -⟩ := Option.map_eq_some_iff.mp h.1
      refine .inl ⟨trivial, none, s.onProc fun p => { p with sendFile1 := none },
        ?_, by simp [hres],
        ?_, hkill⟩
      · simp [runOp, teardownMessaging, teardownPipe, bind_apply, hf, h.2]
      · simp [FilesHold, hd, St.onProc, h.2]
  · next hd =>
      obtain ⟨g, hg, -⟩ := Option.map_eq_some_iff.mp h.2
      refine .inl ⟨trivial, none, s.onProc fun p => { p with sendFile2 := none },
        ?_, by simp [hres],
        ?_, hkill⟩
      · simp [runOp, teardownMessaging, teardownPipe, bind_apply, hg]
      · simp [FilesHold, hd, St.onProc, h.1]
  · exact h.elim

theorem stepsTo_put (hpos : 0 < depth ops) (m : SendMsg) : StepsTo x ops (.put m) s := by
  have hres : results (ops ++ [.put m]) = results ops := results_of_not_take (by simp) ops
  obtain ⟨f, hf, hc⟩ := h.getPipe hpos
  have hsend : sendMsg x m s = match (Wire.ppack x.cfg m : Except EPrintf (List SendMsg)) with
      | .error _ => .error (.exited 2) s
      | .ok data => .ok () (s.onProc (Proc.fwrite data)) := by
    simp only [sendMsg, killPoint, bind_apply, read_apply, hkill, pure_apply, hf]
    cases (Wire.ppack x.cfg m : Except EPrintf (List SendMsg)) <;> rfl
  cases hm : ppack x.cfg.sz x.cfg.maxMsg m with
  | error e =>
      have hw : (Wire.ppack x.cfg m : Except EPrintf (List SendMsg)) = .error e := by
        simp [Wire.ppack, hm, Except.map]
      rw [hw] at hsend
      refine .inr ⟨by simp [Allowed, hm], s, ?_⟩
      rw [runOp, bind_of_error _ hsend]
  | ok data =>
      have hw : (Wire.ppack x.cfg m : Except EPrintf (List SendMsg)) = .ok [m] := by
        simp [Wire.ppack, hm, Except.map]
      rw [hw] at hsend
      refine .inl ⟨⟨data, hm⟩, none, s.onProc (Proc.fwrite [m]), ?_, by simp [hres], ?_, ?_⟩
      · rw [runOp, bind_of_ok _ hsend]
        rfl
      · unfold FilesHold at h ⊢
        rw [depth_put]
        split at h
        · omega
        · obtain ⟨g, hg, hgc⟩ := Option.map_eq_some_iff.mp h.1
          simp [St.onProc, Proc.fwrite, h.2, hg, hgc]
        · obtain ⟨g, hg, hgc⟩ := Option.map_eq_some_iff.mp h.2
          simp [St.onProc, Proc.fwrite, h.1, hg, hgc]
        · exact h.elim
      · show (s.proc.fwrite [m]).killIn = none
        rw [Proc.fwrite_eq]
        exact hkill

theorem stepsTo_take (hpos : 0 < depth ops) (hnn : ∀ m ∈ pending 0 ops, m.NonNeg) (w : Bool) :
    StepsTo x ops (.take w) s := by
  obtain ⟨f, hf, hc⟩ := h.getPipe hpos
  have hreceive := receiveTestResult_messages x hf w
  have hallowed : Allowed x.cfg ops (.take w) ↔
      (∀ m ∈ f.content, m.NonNeg) ∧ (received rcvmsgCreate f.content).lastctx ≠ .invalid := by
    rw [hc, lastctx_received, Allowed, and_iff_right hnn]
    cases lastCtx (pending 0 ops) with
    | none => simp [rcvmsgCreate]
    | some c => simp
  by_cases ha : Allowed x.cfg ops (.take w)
  · rw [if_pos (hallowed.mp ha)] at hreceive
    refine .inl ⟨ha, some _, _, bind_of_ok _ hreceive, by simp [hc], ?_, ?_⟩
    · unfold FilesHold at h ⊢
      rw [depth_take]
      split at h
      · omega
      · obtain ⟨g, hg, -⟩ := Option.map_eq_some_iff.mp h.1
        simp [St.onProc, Proc.renew, Proc.openFile1, h.2, hg]
      · obtain ⟨g1, hg1, hc1⟩ := Option.map_eq_some_iff.mp h.1
        obtain ⟨g2, hg2, -⟩ := Option.map_eq_some_iff.mp h.2
        simp [St.onProc, Proc.renew, Proc.openFile2, hg1, hg2, hc1]
      · exact h.elim
    · show s.proc.renew.killIn = none
      simp only [Proc.renew]
      split <;> exact hkill
  · rw [if_neg fun hacc => ha (hallowed.mpr hacc)] at hreceive
    exact .inr ⟨ha, s, bind_of_error _ hreceive⟩

/-- One operation of a properly nested sequence. -/
theorem stepsTo (hnn : ∀ m ∈ pending 0 ops, m.NonNeg) {op : MsgOp}
    (hop : op ≠ .enter → 0 < depth ops) :
    StepsTo x ops op s := by
  cases op with
  | enter => exact stepsTo_enter h hkill
  | put m => exact stepsTo_put h hkill (hop (by simp)) m
  | take w => exact stepsTo_take h hkill (hop (by simp)) hnn w
  | leave => exact stepsTo_leave h hkill (hop (by simp))

end

/-- Every operation of a sequence is accepted after what precedes it. -/
def AllAllowed (cfg : Config) (ops : List MsgOp) : Prop := Throughout (Allowed cfg) ops

instance (cfg : Config) (ops : List MsgOp) : Decidable (AllAllowed cfg ops) :=
  inferInstanceAs (Decidable (Throughout _ ops))

/-- A whole sequence, on the abstract machine. -/
theorem runOps_messages {x : Ctx} {s₀ : St List SendMsg ν} (h1 : s₀.proc.sendFile1 = none)
    (h2 : s₀.proc.sendFile2 = none) (hkill : s₀.proc.killIn = none) {ops : List MsgOp}
    (hnest : WellNested ops) (hnn : ∀ m, .put m ∈ ops → m.NonNeg) :
    (AllAllowed x.cfg ops ∧ ∃ s, runOps x ops s₀ = .ok (results ops) s ∧ FilesHold ops s.proc ∧
        s.proc.killIn = none) ∨
      (¬ AllAllowed x.cfg ops ∧ ∃ s, runOps x ops s₀ = .error (.exited 2) s) := by
  induction ops using List.reverseRecOn with
  | nil =>
      exact .inl ⟨throughout_nil _, s₀, rfl, ⟨h1, h2⟩, hkill⟩
  | append_singleton ops op ih =>
      obtain ⟨hops, hop⟩ := wellNested_concat.mp hnest
      rw [runOps_concat, AllAllowed, throughout_concat]
      rcases ih hops fun m hm => hnn m (by simp [hm]) with
        ⟨hall, s, hs, hfiles, hk⟩ | ⟨hall, s, hs⟩
      · have hpend : ∀ m ∈ pending 0 ops, m.NonNeg := fun m hm =>
          hnn m (List.mem_append_left _ (put_mem_of_mem_pending hm))
        rw [bind_of_ok _ hs]
        rcases stepsTo (x := x) hfiles hk hpend hop with
          ⟨ha, tr, s', hs', hres, hfiles', hk'⟩ | ⟨ha, s', hs'⟩
        · refine .inl ⟨⟨hall, ha⟩, s', ?_, hfiles', hk'⟩
          rw [bind_of_ok _ hs', hres]
          rfl
        · exact .inr ⟨fun h => ha h.2, s', bind_of_error _ hs'⟩
      · exact .inr ⟨fun h => hall h.1, s, bind_of_error _ hs⟩

/-! ## the code -/

theorem sim_runOp (x : Ctx) (op : MsgOp) :
    Sim (StRel x.cfg) (runOp x op : RunM CkList UInt8 ν (Option TestResult)) (runOp x op) := by
  cases op with
  | enter => exact Sim.bind sim_setupPipe fun _ => Sim.pure _
  | put m => exact Sim.bind (sim_sendMsg x m) fun _ => Sim.pure _
  | take w => exact Sim.bind (sim_receiveTestResult x w) fun _ => Sim.pure _
  | leave => exact Sim.bind sim_teardownPipe fun _ => Sim.pure _

theorem sim_runOps (x : Ctx) (ops : List MsgOp) :
    Sim (StRel x.cfg) (runOps x ops : RunM CkList UInt8 ν (List TestResult)) (runOps x ops) := by
  induction ops with
  | nil => exact Sim.pure _
  | cons op ops ih => exact Sim.bind (sim_runOp x op) fun _ => Sim.bind ih fun _ => Sim.pure _

/-- The message files of the code after the history `ops`. -/
structure Stacked (ops : List MsgOp) (p : Proc UInt8) : Prop where
  /-- `send_file2` is open only if `send_file1` is -/
  nested : p.sendFile2.isSome → p.sendFile1.isSome
  /-- the current file holds the messages of the innermost level -/
  content : p.getPipe.map Pipe.content =
    if depth ops = 0 then none else some (encodeAll (pending 0 ops))

theorem FilesHold.stacked {ops : List MsgOp} {s : St CkList UInt8 ν} {t : St List SendMsg ν}
    (hst : StRel cfg s t) (h : FilesHold ops t.proc) : Stacked ops s.proc := by
  cases hst with
  | @mk f1 f2 hf1 hf2 =>
      constructor
      · rw [isSome_eq hf1, isSome_eq hf2]
        exact h.file1_of_file2
      · have hpipe := rel_getPipe hf1 hf2
        by_cases hd : depth ops = 0
        · have hnone : (s.proc.withFiles f1 f2).getPipe = none := by
            simp only [FilesHold, hd] at h
            have h : f1 = none ∧ f2 = none := h
            simp [Proc.getPipe, Proc.withFiles, h]
          rw [hnone] at hpipe
          generalize s.proc.getPipe = o at hpipe
          cases hpipe
          simp [hd]
        · obtain ⟨f, hf, hc⟩ := h.getPipe (Nat.pos_of_ne_zero hd)
          rw [show (s.proc.withFiles f1 f2).getPipe = some f from hf] at hpipe
          generalize s.proc.getPipe = o at hpipe
          cases hpipe with
          | some hfg => simp [hd, hfg.content, hc]

/-- **The message files are a stack of two levels without cross-talk.**  A
properly nested sequence of operations runs to its end if and only if each of
them is allowed: no third level is set up, `ppack` accepts what is sent, and a
context is pending where a result is received; otherwise it ends in `eprintf`.
Each result is made of just the messages that are pending on its level, and a
complete bracket leaves the messages of the level around it alone. -/
theorem messaging_stack {x : Ctx} {s₀ : St CkList UInt8 ν} (h1 : s₀.proc.sendFile1 = none)
    (h2 : s₀.proc.sendFile2 = none) (hkill : s₀.proc.killIn = none) {ops : List MsgOp}
    (hnest : WellNested ops) (hnn : ∀ m, .put m ∈ ops → m.NonNeg) :
    (AllAllowed x.cfg ops → ∃ s, runOps x ops s₀ = .ok (results ops) s ∧ Stacked ops s.proc ∧
      ∀ front block, ops = front ++ block → WellNested block → depth block = 0 →
        ∃ t, runOps x front s₀ = .ok (results front) t ∧
          s.proc.getPipe.map Pipe.content = t.proc.getPipe.map Pipe.content) ∧
    (¬ AllAllowed x.cfg ops → ∃ s, runOps x ops s₀ = .error (.exited 2) s) := by
  have hlegible : Legible x.cfg s₀.proc := legible_of_closed h1 h2
  obtain ⟨t₀, hst₀⟩ := hlegible.exists_stRel
  have hclosed : t₀.proc.sendFile1 = none ∧ t₀.proc.sendFile2 = none ∧ t₀.proc.killIn = none := by
    cases hst₀ with
    | mk hf1 hf2 =>
        rw [h1] at hf1
        rw [h2] at hf2
        cases hf1
        cases hf2
        exact ⟨rfl, rfl, hkill⟩
  obtain ⟨ht1, ht2, htk⟩ := hclosed
  -- every allowed sequence, so also every part of one
  have hrun : ∀ ops, WellNested ops → (∀ m, .put m ∈ ops → m.NonNeg) → AllAllowed x.cfg ops →
      ∃ s, runOps x ops s₀ = .ok (results ops) s ∧ Stacked ops s.proc := by
    intro ops hnest hnn hall
    obtain ⟨-, t, ht, hfiles, -⟩ := (runOps_messages (x := x) ht1 ht2 htk hnest hnn).resolve_right
      fun h => h.1 hall
    obtain ⟨s, hs, hst⟩ := (sim_runOps x ops).to_ok hst₀ ht
    exact ⟨s, hs, hfiles.stacked hst⟩
  constructor
  · intro hall
    obtain ⟨s, hs, hstack⟩ := hrun ops hnest hnn hall
    refine ⟨s, hs, hstack, ?_⟩
    rintro front block rfl hblock hdepth
    obtain ⟨t, ht, hfront⟩ := hrun front hnest.of_append (fun m hm => hnn m (by simp [hm]))
      hall.of_append
    obtain ⟨hd, hp⟩ := pending_append hblock front
    refine ⟨t, ht, ?_⟩
    rw [hstack.content, hfront.content, hd, hdepth, Nat.add_zero]
    have hp0 := hp 0
    rw [hdepth] at hp0
    rw [hp0]
  · intro hall
    obtain ⟨-, t, ht⟩ := (runOps_messages (x := x) ht1 ht2 htk hnest hnn).resolve_left
      fun h => hall h.1
    obtain ⟨s, hs, -⟩ := (sim_runOps x ops).to_error hst₀ ht
    exact ⟨s, hs⟩

/-- A process that runs nothing. -/
def Sample.idle : St CkList UInt8 NestedRun := Sample.start [] .fork

/-- A run inside a run: two contexts on the inner level, one message around it. -/
def Sample.bracket : List MsgOp :=
  [.enter, .put (.ctx .setup), .enter, .put (.ctx .test), .take false,
    .put (.ctx .teardown), .leave,
    .put (.duration 5), .take false, .leave]

/-- A nested level whose result is taken before that of the level around it. -/
theorem messaging_stack_bracket :
    ∃ s, runOps Sample.ctx Sample.bracket Sample.idle = .ok (results Sample.bracket) s ∧
      Stacked Sample.bracket s.proc ∧
      ∀ front block, Sample.bracket = front ++ block → WellNested block → depth block = 0 →
        ∃ t, runOps Sample.ctx front Sample.idle = .ok (results front) t ∧
          s.proc.getPipe.map Pipe.content = t.proc.getPipe.map Pipe.content := by
  have h1 : Sample.idle.proc.sendFile1 = none := rfl
  have hnest : WellNested Sample.bracket := by decide
  refine (messaging_stack (x := Sample.ctx) h1 rfl rfl hnest ?_).1 (by decide +kernel)
  intro m hm
  simp only [Sample.bracket, List.mem_cons, reduceCtorEq, Bracket.put.injEq, List.not_mem_nil,
    or_false, false_or] at hm
  rcases hm with rfl | rfl | rfl | rfl <;> decide

/-- Nothing was sent on the level, and its result is asked for. -/
theorem receive_without_messages :
    WellNested ([.enter, .take false] : List MsgOp) ∧
    ∃ s, runOps Sample.ctx [.enter, .take false] Sample.idle = .error (.exited 2) s := by
  have hstop : (stopped (runOps Sample.ctx [.enter, .take false] Sample.idle)).map Prod.fst =
      some (.exited 2) := by
    decide +kernel
  obtain ⟨e, s, hs, rfl⟩ := error_of_stopped hstop
  exact ⟨by decide, s, hs⟩

end LibCheck
