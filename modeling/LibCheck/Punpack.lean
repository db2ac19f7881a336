import LibCheck.Bytes
import LibCheck.Pack

/-!
# LibCheck.Punpack

The receiving side (`check_pack.c`, second half): `get_result` parses one
message out of a buffer and updates the `RcvMsg`; `punpack` runs it over a
file through a sliding window of twice the message limit.

The window is modelled with all of its bytes: the contents `malloc` left in
the buffer, and the stale bytes that `memmove` leaves behind, are there to be
read.  `fread` returns fewer bytes than asked only at the end of the file.

* `step_window` — one iteration on a window that begins with a whole message
  consumes exactly that message and restores the window invariant
  (`Window.Inv`): the window is a prefix of the unread stream, and it is full
  unless the file is exhausted.
* `punpack_exact_iff` — on a stream of accepted messages `punpack` ends, and it
  yields the fold of `get_result`'s update exactly when no `int` field is
  negative and the first window fits a `ssize_t`.
-/

namespace LibCheck

/-! ## the received message -/

/-- `RcvMsg`: what the receiver remembers of the messages seen so far. -/
structure RcvMsg where
  lastctx : CkResultCtx
  failctx : CkResultCtx
  fixtureFile : Option CStr
  fixtureLine : Int32
  testFile : Option CStr
  testLine : Int32
  msg : Option CStr
  duration : Int32
deriving DecidableEq, Repr

/-- `reset_rcv_fixture`. -/
def resetRcvFixture (rmsg : RcvMsg) : RcvMsg :=
  { rmsg with fixtureLine := -1, fixtureFile := none }

/-- `rcvmsg_create`. -/
def rcvmsgCreate : RcvMsg where
  lastctx := .invalid
  failctx := .invalid
  msg := none
  duration := -1
  testLine := -1
  testFile := none
  fixtureLine := -1
  fixtureFile := none

/-- `rcvmsg_update_ctx`. -/
def rcvmsgUpdateCtx (rmsg : RcvMsg) (ctx : CkResultCtx) : RcvMsg :=
  let rmsg := if rmsg.lastctx ≠ .invalid then resetRcvFixture rmsg else rmsg
  { rmsg with lastctx := ctx }

/-- `rcvmsg_update_loc`. -/
def rcvmsgUpdateLoc (rmsg : RcvMsg) (file : CStr) (line : Int32) : RcvMsg :=
  if rmsg.lastctx = .test then
    { rmsg with testLine := line, testFile := some file }
  else
    { rmsg with fixtureLine := line, fixtureFile := some file }

/-- The update `get_result` performs for one message. -/
def applyMsg (rmsg : RcvMsg) : CheckMsg CStr → RcvMsg
  | .ctx ctx => rcvmsgUpdateCtx rmsg ctx
  | .loc file line =>
      if rmsg.failctx = .invalid then rcvmsgUpdateLoc rmsg file line else rmsg
  | .fail msg =>
      -- later failure messages are skipped
      if rmsg.msg = none then { rmsg with msg := some msg, failctx := rmsg.lastctx } else rmsg
  | .duration d => { rmsg with duration := d }

/-- `get_result`: the number of bytes consumed and the updated `RcvMsg`.  The
strings are copied with `strdup`, so they end at their first NUL byte. -/
def getResult (buf : List UInt8) (rmsg : RcvMsg) : Except Fault (Nat × RcvMsg) := do
  let (msg, n) ← upack buf
  pure (n, applyMsg rmsg (msg.map CStr.ofBuf))

/-! ## punpack -/

/-- The variables of `punpack`'s loop: the whole `2 * M` byte buffer, how many
of its bytes are valid, the result of the last read, the unread part of the
file, and the message under construction. -/
structure Window where
  buf : List UInt8
  nparse : Nat
  nread : Nat
  file : List UInt8
  rmsg : RcvMsg

/-- One iteration of the loop of `punpack`.  The difference of the two
`ssize_t` values is taken exactly; where it is below `SSIZE_MIN` the C
expression is undefined, and the exact value counts as the error. -/
def punpackStep (sz : SizeT) (w : Window) : Except Fault Window := do
  let (n, rmsg) ← getResult w.buf w.rmsg
  if sz.toSsize w.nparse - sz.toSsize n < 0 then throw (.eprintf .getResultError)
  let nparse := w.nparse - n
  let buf := slide w.buf n nparse
  if w.nread > 0 then
    let data := w.file.take n
    pure { buf := overwrite buf nparse data, nparse := nparse + data.length,
           nread := data.length, file := w.file.drop n, rmsg := rmsg }
  else
    pure { w with buf := buf, nparse := nparse, rmsg := rmsg }

/-- The loop `while(nparse > 0)`; `none` when the budget of iterations runs
out first. -/
def punpackLoop (sz : SizeT) : Nat → Window → Option (Except Fault RcvMsg)
  | 0, w => if w.nparse = 0 then some (.ok w.rmsg) else none
  | budget + 1, w =>
      if w.nparse = 0 then some (.ok w.rmsg)
      else match punpackStep sz w with
        | .error e => some (.error e)
        | .ok w' => punpackLoop sz budget w'

/-- The window after the buffer was allocated and filled for the first time;
`heap` is what `malloc` left in the block. -/
def punpackInit (maxMsg : Nat) (heap : Nat → UInt8) (file : List UInt8) : Window :=
  let data := file.take (maxMsg * 2)
  { buf := overwrite ((List.range (maxMsg * 2)).map heap) 0 data
    nparse := data.length
    nread := data.length
    file := file.drop (maxMsg * 2)
    rmsg := rcvmsgCreate }

/-- The null test at the end of `punpack`. -/
def rcvmsgOrNull (rmsg : RcvMsg) : Option RcvMsg :=
  if rmsg.lastctx = .invalid then none else some rmsg

/-- `punpack`.  Every iteration consumes at least one byte, so a file of `k`
bytes needs at most `k` iterations. -/
def punpack (sz : SizeT) (maxMsg : Nat) (heap : Nat → UInt8) (file : List UInt8) :
    Option (Except Fault (Option RcvMsg)) :=
  (punpackLoop sz file.length (punpackInit maxMsg heap file)).map fun r => r.map rcvmsgOrNull

/-! ## the stream semantics -/

/-- The message as the receiver sees it: a null string arrives empty. -/
def SendMsg.seen (m : SendMsg) : CheckMsg CStr := m.map fun s => s.getD .empty

/-- The `RcvMsg` after the messages `ms`, one `get_result` update each. -/
def received (rmsg : RcvMsg) (ms : List SendMsg) : RcvMsg :=
  ms.foldl (fun r m => applyMsg r (SendMsg.seen m)) rmsg

/-- The bytes of a stream of messages. -/
def encodeAll (ms : List SendMsg) : List UInt8 := ms.flatMap encode

/-- What `strdup` keeps of a decoded string is the string that was sent. -/
theorem map_ofBuf_strBytes (m : SendMsg) :
    (m.map strBytes).map CStr.ofBuf = SendMsg.seen m := by
  have hstr (s : Option CStr) : CStr.ofBuf (strBytes s) = s.getD .empty := by
    cases s with
    | none => rfl
    | some s => exact CStr.ofBuf_bytes s
  cases m <;> simp only [CheckMsg.map, SendMsg.seen, hstr]

/-! ## the window invariant -/

/-- The window of a stream of bytes: the valid bytes are a prefix of the unread
stream, the buffer is full unless the file is exhausted, and a read that
returned nothing has seen the end of the file. -/
structure Window.Holds (maxMsg : Nat) (bytes : List UInt8) (w : Window) : Prop where
  size : w.buf.length = maxMsg * 2
  valid : w.nparse ≤ maxMsg * 2
  stream : w.buf.take w.nparse ++ w.file = bytes
  full : w.nparse < maxMsg * 2 → w.file = []
  eof : w.nread = 0 → w.file = []

/-- The window after a message of `n` bytes: the bytes behind it are moved to the
front, and the space that became free is filled from the file. -/
def Window.advance (w : Window) (n : Nat) (rmsg : RcvMsg) : Window :=
  let nparse := w.nparse - n
  let buf := slide w.buf n nparse
  if w.nread > 0 then
    let data := w.file.take n
    { buf := overwrite buf nparse data, nparse := nparse + data.length,
      nread := data.length, file := w.file.drop n, rmsg := rmsg }
  else
    { w with buf := buf, nparse := nparse, rmsg := rmsg }

/-- An iteration that passes its check advances the window. -/
theorem punpackStep_of_getResult (sz : SizeT) {w : Window} {n : Nat} {rmsg : RcvMsg}
    (h : getResult w.buf w.rmsg = .ok (n, rmsg)) :
    punpackStep sz w =
      if sz.toSsize w.nparse - sz.toSsize n < 0 then .error (.eprintf .getResultError)
      else .ok (w.advance n rmsg) := by
  unfold punpackStep Window.advance
  simp only [h, bind, Except.bind]
  split
  · rfl
  · split <;> rfl

@[simp] theorem Window.advance_rmsg (w : Window) (n : Nat) (rmsg : RcvMsg) :
    (w.advance n rmsg).rmsg = rmsg := by
  unfold Window.advance
  split <;> rfl

namespace Window.Holds

variable {w : Window} {bytes : List UInt8}

/-- The valid part of the buffer has `nparse` bytes. -/
theorem length_take (h : w.Holds maxMsg bytes) : (w.buf.take w.nparse).length = w.nparse := by
  rw [List.length_take, h.size]
  exact Nat.min_eq_left h.valid

/-- The window holds as much of the stream as there is room for. -/
theorem nparse_eq (h : w.Holds maxMsg bytes) : w.nparse = min (maxMsg * 2) bytes.length := by
  have hlen := congrArg List.length h.stream
  rw [List.length_append, h.length_take] at hlen
  have hvalid := h.valid
  by_cases hlt : w.nparse < maxMsg * 2
  · rw [h.full hlt, List.length_nil] at hlen
    omega
  · omega

/-- The valid bytes are the front of the stream. -/
theorem take_buf (h : w.Holds maxMsg bytes) : w.buf.take w.nparse = bytes.take (maxMsg * 2) := by
  have hfront : bytes.take w.nparse = w.buf.take w.nparse := by
    rw [← h.stream, List.take_left' h.length_take]
  rw [← hfront, h.nparse_eq]
  by_cases hle : maxMsg * 2 ≤ bytes.length
  · rw [Nat.min_eq_left hle]
  · rw [Nat.min_eq_right (by omega), List.take_length, List.take_of_length_le (by omega)]

/-- A prefix of the stream that fits the window is at the front of the buffer. -/
theorem buf_eq {front rest : List UInt8} (h : w.Holds maxMsg (front ++ rest))
    (hle : front.length ≤ maxMsg * 2) : ∃ tail, w.buf = front ++ tail := by
  have htake := h.take_buf
  rw [List.take_append, List.take_of_length_le hle] at htake
  refine ⟨(rest.take (maxMsg * 2 - front.length)) ++ w.buf.drop w.nparse, ?_⟩
  rw [← List.append_assoc, ← htake, List.take_append_drop]

/-- Advancing over the front of the window drops it from the stream, for every
way the next `fread` can fall short. -/
theorem advance (h : w.Holds maxMsg bytes) (hle : n ≤ w.nparse) (hpos : 0 < n) (rmsg : RcvMsg) :
    (w.advance n rmsg).Holds maxMsg (bytes.drop n) := by
  have hvalid := h.valid
  have hfit : n + (w.nparse - n) ≤ w.buf.length := by
    rw [h.size]
    omega
  have hslide : (slide w.buf n (w.nparse - n)).length = maxMsg * 2 := by
    rw [length_slide hfit, h.size]
  have hfront : (slide w.buf n (w.nparse - n)).take (w.nparse - n) ++ w.file = bytes.drop n := by
    have hsum : n + (w.nparse - n) = w.nparse := by omega
    rw [take_slide hfit, hsum, ← h.stream,
      List.drop_append_of_le_length (by rw [h.length_take]; exact hle)]
  have hdata : (w.file.take n).length ≤ n := by
    rw [List.length_take]
    exact Nat.min_le_left _ _
  unfold Window.advance
  split
  · next hread =>
    constructor
    · show (overwrite _ _ _).length = _
      rw [length_overwrite (by rw [hslide]; omega), hslide]
    · show w.nparse - n + (w.file.take n).length ≤ maxMsg * 2
      omega
    · show (overwrite _ _ _).take _ ++ _ = _
      rw [take_overwrite _ (by rw [hslide]; omega), List.append_assoc, List.take_append_drop]
      exact hfront
    · -- a window that is not full was refilled short, which happens only at end of file
      intro hlt
      have hlt' : w.nparse - n + (w.file.take n).length < maxMsg * 2 := hlt
      rw [List.length_take] at hlt'
      by_cases hfull : w.nparse < maxMsg * 2
      · rw [h.full hfull, List.drop_nil]
      · exact List.drop_eq_nil_of_le (by omega)
    · intro hz
      have hz' : (w.file.take n).length = 0 := hz
      rw [List.length_take] at hz'
      exact List.drop_eq_nil_of_le (by omega)
  · next hread =>
    -- the file is exhausted, and the slid window is the whole remaining stream
    exact
      { size := hslide
        valid := by show w.nparse - n ≤ maxMsg * 2; omega
        stream := hfront
        full := fun _ => h.eof (by omega)
        eof := h.eof }

end Window.Holds

/-- The window of a stream `ms`: the valid bytes are a prefix of the unread
stream, the buffer is full unless the file is exhausted, and a read that
returned nothing has seen the end of the file. -/
def Window.Inv (maxMsg : Nat) (ms : List SendMsg) (w : Window) : Prop :=
  w.Holds maxMsg (encodeAll ms)

theorem encodeAll_cons (m : SendMsg) (ms : List SendMsg) :
    encodeAll (m :: ms) = encode m ++ encodeAll ms := List.flatMap_cons

/-- A message within the limit lies wholly inside the window. -/
theorem Window.Inv.length_encode_le {w : Window} {m : SendMsg} (h : w.Inv maxMsg (m :: ms))
    (hmax : (encode m).length ≤ maxMsg) : (encode m).length ≤ w.nparse := by
  rw [Window.Holds.nparse_eq h, encodeAll_cons, List.length_append]
  omega

/-- The window begins with its first message. -/
theorem Window.Inv.buf_eq {w : Window} {m : SendMsg} (h : w.Inv maxMsg (m :: ms))
    (hmax : (encode m).length ≤ maxMsg) : ∃ rest, w.buf = encode m ++ rest := by
  have hholds : w.Holds maxMsg (encode m ++ encodeAll ms) := h
  exact hholds.buf_eq (by omega)

/-- `get_result` on a window parses exactly its first message. -/
theorem getResult_window {w : Window} {m : SendMsg} (h : w.Inv maxMsg (m :: ms))
    (hmax : (encode m).length ≤ maxMsg) (hint : (encode m).length ≤ intMax) (hnn : m.NonNeg)
    (rmsg : RcvMsg) :
    getResult w.buf rmsg = .ok ((encode m).length, applyMsg rmsg (SendMsg.seen m)) := by
  obtain ⟨rest, hbuf⟩ := h.buf_eq hmax
  simp only [getResult, hbuf, upack_encode_append hnn hint, bind, Except.bind, pure, Except.pure,
    map_ofBuf_strBytes]

/-- **One iteration**: a window that begins with an accepted message with a
non-negative `int` field, and that fits a `ssize_t`, consumes that message
and restores the invariant for the rest of the stream. -/
theorem step_window {sz : SizeT} {w : Window} {m : SendMsg} (h : w.Inv maxMsg (m :: ms))
    (hmax : (encode m).length ≤ maxMsg) (hint : (encode m).length ≤ intMax) (hnn : m.NonNeg)
    (hss : w.nparse ≤ sz.ssizeMax) :
    ∃ w', punpackStep sz w = .ok w' ∧ w'.Inv maxMsg ms ∧ w'.nparse ≤ w.nparse ∧
      w'.rmsg = applyMsg w.rmsg (SendMsg.seen m) := by
  have hle := h.length_encode_le hmax
  have hdiff : ¬ sz.toSsize w.nparse - sz.toSsize (encode m).length < 0 := by
    rw [SizeT.toSsize_of_le hss, SizeT.toSsize_of_le (by omega)]
    omega
  have hstep := punpackStep_of_getResult sz (getResult_window h hmax hint hnn w.rmsg)
  have hpos := eight_le_length_encode m
  have hnext := Window.Holds.advance h hle (by omega) (applyMsg w.rmsg (SendMsg.seen m))
  rw [encodeAll_cons, List.drop_left] at hnext
  refine ⟨_, hstep.trans (if_neg hdiff), hnext, ?_, w.advance_rmsg _ _⟩
  rw [hnext.nparse_eq, Window.Holds.nparse_eq h, encodeAll_cons, List.length_append]
  omega

/-- An iteration fails on a message with a negative `int` field, and on any
message while the window exceeds `SSIZE_MAX`. -/
theorem step_window_error {sz : SizeT} {w : Window} {m : SendMsg} (h : w.Inv maxMsg (m :: ms))
    (hmax : (encode m).length ≤ maxMsg) (hint : (encode m).length ≤ intMax)
    (hsize : maxMsg * 2 ≤ sz.sizeMax) (hbad : ¬ m.NonNeg ∨ sz.ssizeMax < w.nparse) :
    ∃ e, punpackStep sz w = .error (.eprintf e) := by
  by_cases hnn : m.NonNeg
  · have hss : sz.ssizeMax < w.nparse := hbad.resolve_left (fun hn => hn hnn)
    have hdiff : sz.toSsize w.nparse - sz.toSsize (encode m).length < 0 := by
      have hneg := SizeT.toSsize_neg hss (Nat.le_trans h.valid hsize)
      have hint' : (encode m).length ≤ sz.ssizeMax := by
        cases sz <;> simp only [SizeT.ssizeMax, intMax] at hint ⊢ <;> omega
      rw [SizeT.toSsize_of_le hint']
      omega
    refine ⟨.getResultError, ?_⟩
    simp only [punpackStep, getResult_window h hmax hint hnn, bind, Except.bind, if_pos hdiff]
    rfl
  · obtain ⟨rest, hbuf⟩ := h.buf_eq hmax
    obtain ⟨e, he⟩ := upack_encode_neg hnn hint rest
    exact ⟨e, by simp only [punpackStep, getResult, hbuf, he, bind, Except.bind]⟩

/-! ## whole streams -/

/-- Every message of the stream is within the limit and within `INT_MAX`. -/
def Limited (maxMsg : Nat) (ms : List SendMsg) : Prop :=
  ∀ m ∈ ms, (encode m).length ≤ maxMsg ∧ (encode m).length ≤ intMax

instance (maxMsg : Nat) (ms : List SendMsg) : Decidable (Limited maxMsg ms) :=
  inferInstanceAs (Decidable (∀ m ∈ ms, (encode m).length ≤ maxMsg ∧ (encode m).length ≤ intMax))

/-- A stream has at least as many bytes as messages. -/
theorem length_le_length_encodeAll (ms : List SendMsg) : ms.length ≤ (encodeAll ms).length := by
  induction ms with
  | nil => exact Nat.zero_le _
  | cons m ms ih =>
      have hpos := eight_le_length_encode m
      rw [encodeAll_cons, List.length_cons, List.length_append]
      omega

/-- The loop stops exactly at the end of the stream. -/
theorem Window.Inv.nparse_eq_zero {w : Window} (h : w.Inv maxMsg []) : w.nparse = 0 := by
  rw [Window.Holds.nparse_eq h]
  simp [encodeAll]

theorem punpackLoop_done {sz : SizeT} {w : Window} (budget : Nat) (h : w.nparse = 0) :
    punpackLoop sz budget w = some (.ok w.rmsg) := by
  cases budget <;> rw [punpackLoop, if_pos h]

/-- The loop on a stream of messages with non-negative `int` fields, from a
window that fits a `ssize_t`. -/
theorem loop_stream (sz : SizeT) (ms : List SendMsg) (w : Window) (budget : Nat)
    (h : w.Inv maxMsg ms) (hlim : Limited maxMsg ms) (hnn : ∀ m ∈ ms, m.NonNeg)
    (hss : w.nparse ≤ sz.ssizeMax) (hbudget : ms.length ≤ budget) :
    punpackLoop sz budget w = some (.ok (received w.rmsg ms)) := by
  induction ms generalizing w budget with
  | nil =>
      rw [punpackLoop_done budget h.nparse_eq_zero]
      rfl
  | cons m ms ih =>
      obtain ⟨hmax, hint⟩ := hlim m List.mem_cons_self
      have hle := h.length_encode_le hmax
      have hpos := eight_le_length_encode m
      obtain ⟨w', hstep, hinv, hmono, hrmsg⟩ :=
        step_window h hmax hint (hnn m List.mem_cons_self) hss
      obtain ⟨budget, rfl⟩ : ∃ k, budget = k + 1 := ⟨budget - 1, by
        rw [List.length_cons] at hbudget
        omega⟩
      rw [punpackLoop, if_neg (by omega)]
      simp only [hstep]
      rw [ih w' budget hinv (fun q hq => hlim q (List.mem_cons_of_mem m hq))
        (fun q hq => hnn q (List.mem_cons_of_mem m hq)) (by omega)
        (by rw [List.length_cons] at hbudget; omega), hrmsg]
      rfl

/-- The loop ends in an `eprintf` on a stream with a negative `int` field, and
on any stream whose window does not fit a `ssize_t`. -/
theorem loop_stream_error {sz : SizeT} (ms : List SendMsg) (w : Window) (budget : Nat)
    (h : w.Inv maxMsg ms) (hlim : Limited maxMsg ms) (hsize : maxMsg * 2 ≤ sz.sizeMax)
    (hbad : (∃ m ∈ ms, ¬ m.NonNeg) ∨ sz.ssizeMax < w.nparse) (hbudget : ms.length ≤ budget) :
    ∃ e, punpackLoop sz budget w = some (.error (.eprintf e)) := by
  induction ms generalizing w budget with
  | nil =>
      have hz := h.nparse_eq_zero
      rcases hbad with ⟨m, hm, _⟩ | hss
      · exact absurd hm List.not_mem_nil
      · omega
  | cons m ms ih =>
      obtain ⟨hmax, hint⟩ := hlim m List.mem_cons_self
      have hle := h.length_encode_le hmax
      have hpos := eight_le_length_encode m
      obtain ⟨budget, rfl⟩ : ∃ k, budget = k + 1 := ⟨budget - 1, by
        rw [List.length_cons] at hbudget
        omega⟩
      rw [punpackLoop, if_neg (by omega)]
      by_cases hnow : ¬ m.NonNeg ∨ sz.ssizeMax < w.nparse
      · obtain ⟨e, he⟩ := step_window_error h hmax hint hsize hnow
        exact ⟨e, by simp only [he]⟩
      · -- the first message is parsed, so the offending one lies further on
        have hnn : m.NonNeg := Decidable.not_not.mp fun hn => hnow (.inl hn)
        have hss : w.nparse ≤ sz.ssizeMax := Nat.not_lt.mp fun hs => hnow (.inr hs)
        obtain ⟨w', hstep, hinv, hmono, -⟩ := step_window h hmax hint hnn hss
        have hlater : ∃ q ∈ ms, ¬ q.NonNeg := by
          rcases hbad with ⟨q, hq, hneg⟩ | hbig
          · rcases List.mem_cons.mp hq with rfl | hq
            · exact absurd hnn hneg
            · exact ⟨q, hq, hneg⟩
          · omega
        simp only [hstep]
        exact ih w' budget hinv (fun q hq => hlim q (List.mem_cons_of_mem m hq)) (.inl hlater)
          (by rw [List.length_cons] at hbudget; omega)

/-- The first window of a stream. -/
theorem holds_punpackInit (heap : Nat → UInt8) {bytes : List UInt8}
    (hpos : bytes = [] ∨ 0 < maxMsg) :
    (punpackInit maxMsg heap bytes).Holds maxMsg bytes := by
  have hdata : (bytes.take (maxMsg * 2)).length ≤ maxMsg * 2 := by
    rw [List.length_take]
    exact Nat.min_le_left _ _
  have hheap : ((List.range (maxMsg * 2)).map heap).length = maxMsg * 2 := by
    rw [List.length_map, List.length_range]
  constructor
  · show (overwrite _ _ _).length = _
    rw [length_overwrite (by rw [hheap, Nat.zero_add]; exact hdata), hheap]
  · exact hdata
  · have hread := take_overwrite (bytes.take (maxMsg * 2))
      (Nat.zero_le ((List.range (maxMsg * 2)).map heap).length)
    rw [Nat.zero_add, List.take_zero, List.nil_append] at hread
    show (overwrite _ _ _).take (bytes.take (maxMsg * 2)).length ++ bytes.drop (maxMsg * 2) = _
    rw [hread, List.take_append_drop]
  · intro hlt
    have hlt' : (bytes.take (maxMsg * 2)).length < maxMsg * 2 := hlt
    rw [List.length_take] at hlt'
    exact List.drop_eq_nil_of_le (by omega)
  · intro hz
    have hz' : (bytes.take (maxMsg * 2)).length = 0 := hz
    rw [List.length_take] at hz'
    rcases hpos with rfl | hpos
    · exact List.drop_nil
    · exact List.drop_eq_nil_of_le (by omega)

theorem inv_punpackInit (heap : Nat → UInt8) {ms : List SendMsg} (hlim : Limited maxMsg ms) :
    (punpackInit maxMsg heap (encodeAll ms)).Inv maxMsg ms := by
  refine holds_punpackInit heap ?_
  -- a limit of zero admits no message
  cases ms with
  | nil => exact .inl rfl
  | cons m ms =>
      have hmax := (hlim m List.mem_cons_self).1
      have hpos := eight_le_length_encode m
      exact .inr (by omega)

/-- The condition under which a stream of limited messages is received: no
`int` field is negative and the first window fits a `ssize_t`. -/
def Receivable (sz : SizeT) (maxMsg : Nat) (ms : List SendMsg) : Prop :=
  (∀ m ∈ ms, m.NonNeg) ∧ min (maxMsg * 2) (encodeAll ms).length ≤ sz.ssizeMax

theorem nparse_punpackInit (maxMsg : Nat) (heap : Nat → UInt8) (file : List UInt8) :
    (punpackInit maxMsg heap file).nparse = min (maxMsg * 2) file.length := by
  simp only [punpackInit, List.length_take]

/-- A receivable stream yields the fold of its messages. -/
theorem punpack_of_receivable {sz : SizeT} {ms : List SendMsg} (heap : Nat → UInt8)
    (hlim : Limited maxMsg ms) (hrec : Receivable sz maxMsg ms) :
    punpack sz maxMsg heap (encodeAll ms) =
      some (.ok (rcvmsgOrNull (received rcvmsgCreate ms))) := by
  have hloop := loop_stream sz ms _ _ (inv_punpackInit heap hlim) hlim hrec.1
    (by rw [nparse_punpackInit]; exact hrec.2) (length_le_length_encodeAll ms)
  rw [punpack, hloop]
  rfl

/-- Any other stream of limited messages ends the receiver in an `eprintf`. -/
theorem punpack_of_not_receivable (sz : SizeT) {ms : List SendMsg} (heap : Nat → UInt8)
    (hlim : Limited maxMsg ms) (hsize : maxMsg * 2 ≤ sz.sizeMax)
    (hrec : ¬ Receivable sz maxMsg ms) :
    ∃ e, punpack sz maxMsg heap (encodeAll ms) = some (.error (.eprintf e)) := by
  have hbad : (∃ m ∈ ms, ¬ m.NonNeg) ∨
      sz.ssizeMax < (punpackInit maxMsg heap (encodeAll ms)).nparse := by
    rw [nparse_punpackInit]
    by_cases hnn : ∀ m ∈ ms, m.NonNeg
    · exact .inr (Nat.not_le.mp fun hle => hrec ⟨hnn, hle⟩)
    · exact .inl (by simpa using hnn)
  obtain ⟨e, he⟩ := loop_stream_error ms _ _ (inv_punpackInit heap hlim) hlim hsize hbad
    (length_le_length_encodeAll ms)
  exact ⟨e, by rw [punpack, he]; rfl⟩

/-- A sequence of messages accepted one by one is written as its encoding. -/
theorem mapM_ppack_ok {sz : SizeT} {ms : List SendMsg} {bufs : List (List UInt8)}
    (h : ms.mapM (ppack sz maxMsg) = .ok bufs) :
    bufs.flatten = encodeAll ms ∧ Limited maxMsg ms := by
  induction ms generalizing bufs with
  | nil =>
      rw [List.mapM_nil] at h
      cases h
      exact ⟨rfl, fun m hm => absurd hm List.not_mem_nil⟩
  | cons m ms ih =>
      rw [List.mapM_cons] at h
      simp only [bind, Except.bind, pure, Except.pure] at h
      cases hm : ppack sz maxMsg m with
      | error e => simp only [hm] at h; contradiction
      | ok buf =>
          simp only [hm] at h
          cases hms : ms.mapM (ppack sz maxMsg) with
          | error e => simp only [hms] at h; contradiction
          | ok rest =>
              simp only [hms] at h
              have hbufs : buf :: rest = bufs := Except.ok.inj h
              subst hbufs
              obtain ⟨hbuf, hint, hmax, -⟩ := ppack_ok hm
              obtain ⟨hflat, hlim⟩ := ih hms
              refine ⟨by rw [List.flatten_cons, hbuf, hflat, encodeAll_cons], fun q hq => ?_⟩
              rcases List.mem_cons.mp hq with rfl | hq
              · exact ⟨hmax, hint⟩
              · exact hlim q hq

/-- **Message transport**: on a file that holds what `ppack` wrote for `ms`,
`punpack` ends without an error and yields the messages folded one by one,
if and only if no `int` field is negative and the first window fits a
`ssize_t`.  Neither the limit nor the place where a message straddles two
refills nor the initial contents of the buffer show in the result. -/
theorem punpack_exact_iff (sz : SizeT) (maxMsg : Nat) (heap : Nat → UInt8) (ms : List SendMsg)
    (bufs : List (List UInt8)) (hsize : maxMsg * 2 ≤ sz.sizeMax)
    (hsent : ms.mapM (ppack sz maxMsg) = .ok bufs) :
    punpack sz maxMsg heap bufs.flatten = some (.ok (rcvmsgOrNull (received rcvmsgCreate ms))) ↔
      (∀ m ∈ ms, m.NonNeg) ∧ min (maxMsg * 2) bufs.flatten.length ≤ sz.ssizeMax := by
  obtain ⟨hflat, hlim⟩ := mapM_ppack_ok hsent
  rw [hflat]
  constructor
  · intro hok
    by_cases hrec : Receivable sz maxMsg ms
    · exact hrec
    · obtain ⟨e, he⟩ := punpack_of_not_receivable sz heap hlim hsize hrec
      rw [he] at hok
      cases hok
  · exact punpack_of_receivable heap hlim

/-- Five messages through a window of 32 bytes: the second one straddles the
first refill. -/
theorem punpack_exact_straddling :
    punpack .w64 16 (fun _ => 0xAA)
      (encodeAll [.ctx .setup, .loc (some (.lit "a.c")) 7, .ctx .test,
        .loc (some (.lit "b.c")) 9, .fail (some (.lit "no"))]) =
      some (.ok (some
        { lastctx := .test, failctx := .test, fixtureFile := none, fixtureLine := -1,
          testFile := some (.lit "b.c"), testLine := 9, msg := some (.lit "no"),
          duration := -1 })) :=
  (punpack_exact_iff .w64 16 (fun _ => 0xAA)
    [.ctx .setup, .loc (some (.lit "a.c")) 7, .ctx .test, .loc (some (.lit "b.c")) 9,
      .fail (some (.lit "no"))]
    _ (by decide) rfl).mpr ⟨by decide, by decide⟩

/-- With a 32-bit `size_t` the guard of `pack_loc` lets a negative line
through, and the receiver ends the whole run on it. -/
theorem punpack_refuses_negative_line :
    ppack .w32 16 (.loc (some (.lit "a.c")) (-1)) =
        .ok (encode (.loc (some (.lit "a.c")) (-1))) ∧
      punpack .w32 16 (fun _ => 0) (encode (.loc (some (.lit "a.c")) (-1))) ≠
        some (.ok (rcvmsgOrNull (received rcvmsgCreate [.loc (some (.lit "a.c")) (-1)]))) := by
  constructor
  · rfl
  · decide

end LibCheck
