import LibCheck.Interleave
import LibCheck.Report

/-!
# LibCheck.Senders

Several threads or processes of one test that share its message file.  `ppack`
writes a message as a whole, so what the receiver sees is an interleaving of
the senders' messages; a failing assertion sends two of them, its place and its
text.

* `failure_location_iff` — the failure that is reported carries the place of
  its own sender if and only if no other place was sent last between the two
  messages.
-/

namespace LibCheck

open RcvMsg

/-- What a sender does: it passes a mark point, or fails an assertion. -/
inductive SenderCall where
  | markPoint (loc : SrcLoc)
  | assertFailed (f : Failure)

/-- `_mark_point` sends one message, `_ck_assert_failed` two. -/
def SenderCall.messages : SenderCall → List SendMsg
  | .markPoint loc => [loc.msg]
  | .assertFailed f => [f.loc.msg, .fail (some f.text)]

/-- The messages of a sender. -/
def senderMessages (calls : List SenderCall) : List SendMsg := calls.flatMap SenderCall.messages

/-- The place that is reported with a failure, by the context it happened in
(`tr_set_loc_by_ctx`). -/
def RcvMsg.place (r : RcvMsg) : Option CStr × Int32 :=
  if r.failctx = .test then (r.testFile, r.testLine) else (r.fixtureFile, r.fixtureLine)

/-! ## what a sender sends -/

/-- A sender sends places and texts only. -/
theorem mem_senderMessages {calls : List SenderCall} {m : SendMsg} (h : m ∈ senderMessages calls) :
    (∃ loc : SrcLoc, m = loc.msg) ∨ ∃ text, m = .fail (some text) := by
  simp only [senderMessages, List.mem_flatMap] at h
  obtain ⟨call, -, hm⟩ := h
  cases call with
  | markPoint loc => exact .inl ⟨loc, by simpa [SenderCall.messages] using hm⟩
  | assertFailed f =>
      simp only [SenderCall.messages, List.mem_cons, List.not_mem_nil, or_false] at hm
      rcases hm with rfl | rfl
      · exact .inl ⟨f.loc, rfl⟩
      · exact .inr ⟨f.text, rfl⟩

/-- A text is sent right after a place of the same sender. -/
theorem loc_before_fail {calls : List SenderCall} {xs : List SendMsg} {text : CStr}
    (h : xs ++ [.fail (some text)] <+: senderMessages calls) :
    ∃ ys, ∃ loc : SrcLoc, xs = ys ++ [loc.msg] ∧ .assertFailed ⟨loc, text⟩ ∈ calls := by
  induction calls generalizing xs with
  | nil => simp [senderMessages] at h
  | cons call calls ih =>
      have hcons : senderMessages (call :: calls) = call.messages ++ senderMessages calls := rfl
      rw [hcons] at h
      cases call with
      | markPoint loc =>
          cases xs with
          | nil => simp [SenderCall.messages, SrcLoc.msg] at h
          | cons x xs =>
              simp only [SenderCall.messages, List.cons_append, List.nil_append,
                List.cons_prefix_cons] at h
              obtain ⟨rfl, h⟩ := h
              obtain ⟨ys, loc', rfl, hmem⟩ := ih h
              exact ⟨loc.msg :: ys, loc', rfl, List.mem_cons_of_mem _ hmem⟩
      | assertFailed f =>
          rcases xs with _ | ⟨x, _ | ⟨y, xs⟩⟩
          · simp [SenderCall.messages, SrcLoc.msg] at h
          · simp only [SenderCall.messages, List.cons_append, List.nil_append,
              List.cons_prefix_cons] at h
            obtain ⟨rfl, ht, -⟩ := h
            cases ht
            exact ⟨[], f.loc, rfl, List.mem_cons_self⟩
          · simp only [SenderCall.messages, List.cons_append, List.nil_append,
              List.cons_prefix_cons] at h
            obtain ⟨rfl, rfl, h⟩ := h
            obtain ⟨ys, loc', rfl, hmem⟩ := ih h
            exact ⟨f.loc.msg :: .fail (some f.text) :: ys, loc', rfl, List.mem_cons_of_mem _ hmem⟩

/-! ## what the receiver makes of it -/

/-- Places leave nothing failed, and the context as it was. -/
theorem clean_received_locs {ms : List SendMsg} {r : RcvMsg} (h : r.Clean c)
    (hms : ∀ m ∈ ms, ∃ loc : SrcLoc, m = loc.msg) : (received r ms).Clean c := by
  induction ms generalizing r with
  | nil => exact h
  | cons m ms ih =>
      obtain ⟨⟨loc, rfl⟩, hrest⟩ := List.forall_mem_cons.mp hms
      rw [received_cons, h.applyMsg_loc]
      exact ih (h.updateLoc loc.file loc.line) hrest

/-- Once a failure was received, places and texts change nothing. -/
theorem received_of_failed {ms : List SendMsg} {r : RcvMsg} {f : Failure}
    (h : r.Failed c f) (hc : c ≠ .invalid)
    (hms : ∀ m ∈ ms, (∃ loc : SrcLoc, m = loc.msg) ∨ ∃ text, m = .fail (some text)) :
    received r ms = r := by
  induction ms with
  | nil => rfl
  | cons m ms ih =>
      obtain ⟨hm, hms⟩ := List.forall_mem_cons.mp hms
      have happly : applyMsg r (SendMsg.seen m) = r := by
        rcases hm with ⟨loc, rfl⟩ | ⟨text, rfl⟩
        · exact if_neg (by rw [h.failctx]; exact hc)
        · exact if_neg (by rw [h.msg]; exact Option.some_ne_none _)
      rw [received_cons, happly]
      exact ih hms

theorem RcvMsg.Failed.place {r : RcvMsg} {f : Failure} (h : r.Failed c f) :
    r.place = (some f.loc.file, f.loc.line) := by
  have hfile := h.file
  have hline := h.line
  unfold RcvMsg.place
  rw [h.failctx]
  split
  · next hc => simp_all
  · next hc => simp_all

theorem SrcLoc.msg_inj {loc loc' : SrcLoc} :
    loc'.msg = loc.msg ↔ (some loc'.file, loc'.line) = (some loc.file, loc.line) := by
  simp [SrcLoc.msg]

/-- The place that is reported is the last one that was sent before the first
text. -/
theorem received_first_fail {r : RcvMsg} {front post : List SendMsg} {loc : SrcLoc} {text : CStr}
    (hr : r.Clean c) (hc : c ≠ .invalid) (hfront : ∀ m ∈ front, ∃ loc : SrcLoc, m = loc.msg)
    (hpost : ∀ m ∈ post, (∃ loc : SrcLoc, m = loc.msg) ∨ ∃ text, m = .fail (some text)) :
    (received r (front ++ loc.msg :: .fail (some text) :: post)).Failed c ⟨loc, text⟩ := by
  have hfail := (clean_received_locs hr hfront).fail hc ⟨loc, text⟩
  have hsplit : front ++ loc.msg :: .fail (some text) :: post =
      front ++ ([loc.msg, .fail (some text)] ++ post) := by simp
  rw [hsplit, received_append, received_append, received_of_failed hfail hc hpost]
  exact hfail

/-- **The place of the first failure**, among the messages of any number of
senders, in any order in which whole messages can follow each other.  The first
text was sent right after a place by its own sender.  `punpack` reports the text
with that place if and only if the last message that others sent in between, if
any, carries the same place. -/
theorem failure_location_iff {σ : Type} [DecidableEq σ] (cfg : Config) (calls : σ → List SenderCall)
    (hdr : List SendMsg) (pre post : List (σ × SendMsg)) (k : σ) (text : CStr)
    (hint : Interleaves (fun k => senderMessages (calls k)) (pre ++ (k, .fail (some text)) :: post))
    (hfirst : ∀ q ∈ pre, ∀ t, q.2 ≠ .fail t) (hhdr : NoFail hdr)
    (hctx : (received rcvmsgCreate hdr).lastctx ≠ .invalid)
    (hlim : Limited cfg.maxMsg (hdr ++ (pre ++ (k, .fail (some text)) :: post).map Prod.snd)) :
    ∃ (loc : SrcLoc) (front between : List (σ × SendMsg)) (rmsg : RcvMsg),
      pre = front ++ (k, loc.msg) :: between ∧ own k between = [] ∧
      .assertFailed ⟨loc, text⟩ ∈ calls k ∧
      punpack cfg.sz cfg.maxMsg cfg.mallocd
        (encodeAll (hdr ++ (pre ++ (k, .fail (some text)) :: post).map Prod.snd)) =
          some (.ok (some rmsg)) ∧
      rmsg.msg = some text ∧
      (rmsg.place = (some loc.file, loc.line) ↔ ∀ q ∈ between.getLast?, q.2 = loc.msg) := by
  have hsent : ∀ q ∈ pre ++ (k, .fail (some text)) :: post,
      (∃ loc : SrcLoc, q.2 = loc.msg) ∨ ∃ text, q.2 = .fail (some text) :=
    fun q hq => mem_senderMessages (hint.mem hq)
  have hlocs : ∀ q ∈ pre, ∃ loc : SrcLoc, q.2 = loc.msg := by
    intro q hq
    rcases hsent q (List.mem_append_left _ hq) with h | ⟨t, ht⟩
    · exact h
    · exact absurd ht (hfirst q hq _)
  -- the sender's own place, and what the others sent after it
  obtain ⟨ys, loc, hown, hcall⟩ := loc_before_fail hint.own_before
  obtain ⟨front, between, hpre, hbetween⟩ := exists_last_own hown
  -- the last place before the text
  obtain ⟨init, j, loc', hlast, hiff⟩ : ∃ init j, ∃ loc' : SrcLoc, pre = init ++ [(j, loc'.msg)] ∧
      (loc'.msg = loc.msg ↔ ∀ q ∈ between.getLast?, q.2 = loc.msg) := by
    rcases List.eq_nil_or_concat between with rfl | ⟨mid, q, rfl⟩
    · exact ⟨front, k, loc, hpre, by simp⟩
    · obtain ⟨loc', hq⟩ := hlocs q (by rw [hpre]; simp)
      refine ⟨front ++ (k, loc.msg) :: mid, q.1, loc', ?_, ?_⟩
      · rw [hpre, ← hq]
        simp
      · simp [hq]
  -- the stream as the receiver sees it
  obtain ⟨c, hclean⟩ := clean_rcvmsgCreate.received fun m hm => (hhdr m hm).2
  have hc : c ≠ .invalid := hclean.lastctx ▸ hctx
  have hmap : (pre ++ (k, .fail (some text)) :: post).map Prod.snd =
      init.map Prod.snd ++ loc'.msg :: .fail (some text) :: post.map Prod.snd := by
    simp [hlast]
  have hinit : ∀ m ∈ init.map Prod.snd, ∃ loc : SrcLoc, m = loc.msg := by
    intro m hm
    obtain ⟨q, hq, rfl⟩ := List.mem_map.mp hm
    exact hlocs q (by rw [hlast]; exact List.mem_append_left _ hq)
  have hpost : ∀ m ∈ post.map Prod.snd,
      (∃ loc : SrcLoc, m = loc.msg) ∨ ∃ text, m = .fail (some text) := by
    intro m hm
    obtain ⟨q, hq, rfl⟩ := List.mem_map.mp hm
    exact hsent q (List.mem_append_right _ (List.mem_cons_of_mem _ hq))
  have hfailed : (received (received rcvmsgCreate hdr)
      (init.map Prod.snd ++ loc'.msg :: .fail (some text) :: post.map Prod.snd)).Failed c
        ⟨loc', text⟩ :=
    received_first_fail hclean hc hinit hpost
  rw [← hmap, ← received_append] at hfailed
  have hnn : ∀ m ∈ hdr ++ (pre ++ (k, .fail (some text)) :: post).map Prod.snd, m.NonNeg := by
    intro m hm
    rcases List.mem_append.mp hm with hm | hm
    · exact (hhdr m hm).1
    · obtain ⟨q, hq, rfl⟩ := List.mem_map.mp hm
      rcases hsent q hq with ⟨loc, h⟩ | ⟨t, h⟩
      · rw [h]
        exact loc.nonNeg_msg
      · rw [h]
        trivial
  refine ⟨loc, front, between, _, hpre, hbetween, hcall, ?_, hfailed.msg, ?_⟩
  · rw [punpack_of_receivable cfg.mallocd hlim
      ⟨hnn, Nat.le_trans (Nat.min_le_left _ _) cfg.window_le⟩,
      rcvmsgOrNull, if_neg hfailed.lastctx]
  · rw [hfailed.place, ← hiff, SrcLoc.msg_inj]

/-- Another place of the sample file. -/
def Sample.otherLoc : SrcLoc := ⟨.lit "t.c", 9, by decide⟩

/-- Two senders: the first one fails an assertion, the second one passes a mark
point. -/
def Sample.twoSenders : Bool → List SenderCall
  | true => [.assertFailed ⟨Sample.loc, .lit "x == y"⟩]
  | false => [.markPoint Sample.otherLoc]

/-- The mark point falls before both messages of the failure. -/
theorem failure_location_iff_apart :
    ∃ rmsg, punpack Sample.cfg.sz Sample.cfg.maxMsg Sample.cfg.mallocd
        (encodeAll [.ctx .test, Sample.otherLoc.msg, Sample.loc.msg,
          .fail (some (.lit "x == y"))]) =
          some (.ok (some rmsg)) ∧
      rmsg.place = (some (.lit "t.c"), 7) := by
  obtain ⟨loc, front, between, rmsg, hpre, hown, hcall, hrun, -, hiff⟩ :=
    failure_location_iff Sample.cfg Sample.twoSenders [.ctx .test]
      [(false, Sample.otherLoc.msg), (true, Sample.loc.msg)] [] true (.lit "x == y")
      (by unfold Interleaves; decide) (by simp [SrcLoc.msg]) (by simp [NoFail, CheckMsg.NonNeg])
      (by decide) (by decide)
  have hloc : loc = Sample.loc := by simpa [Sample.twoSenders] using hcall
  subst hloc
  refine ⟨rmsg, hrun, hiff.mpr ?_⟩
  rcases front with _ | ⟨q, _ | ⟨q', front⟩⟩
  · simp at hpre
  · simp only [List.cons_append, List.nil_append, List.cons.injEq, true_and] at hpre
    simp [← hpre.2]
  · simp at hpre

/-- The mark point falls between them: the failure at line 7 is reported with
line 9. -/
theorem failure_at_other_place :
    Interleaves (fun k => senderMessages (Sample.twoSenders k))
      [(true, Sample.loc.msg), (false, Sample.otherLoc.msg), (true, .fail (some (.lit "x == y")))] ∧
    ∃ rmsg, punpack Sample.cfg.sz Sample.cfg.maxMsg Sample.cfg.mallocd
        (encodeAll [.ctx .test, Sample.loc.msg, Sample.otherLoc.msg,
          .fail (some (.lit "x == y"))]) =
          some (.ok (some rmsg)) ∧
      rmsg.msg = some (.lit "x == y") ∧ rmsg.place = (some (.lit "t.c"), 9) ∧
      rmsg.place ≠ (some Sample.loc.file, Sample.loc.line) := by
  refine ⟨by unfold Interleaves; decide, ?_⟩
  refine ⟨_, punpack_of_receivable Sample.cfg.mallocd (by decide) ⟨by decide, by decide⟩, ?_⟩
  decide

end LibCheck
