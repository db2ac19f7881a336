import LibCheck.Decode
import Mathlib.Data.List.Induction

/-!
# LibCheck.Stream

`punpack` on arbitrary bytes.

The loop takes one message after the other off the front of the stream: an
iteration succeeds if and only if the stream begins with a well-formed message
that fits the buffer (`punpackStep_eq_ok`), and then the rest of the stream is
left.  The bytes that `malloc` or `memmove` left behind the valid ones have no
influence.

* `punpack_accepts_iff` — the streams that are accepted, and the result.
* `punpack_wellFormed` — `punpack` ends on every file, and accepts well-formed
  messages only.
* `reads_within_iff` — when `get_result` reads valid bytes only.
-/

namespace LibCheck

open RawMsg

/-! ## one iteration -/

/-- A message that the receiver with the given limit accepts. -/
structure RawMsg.Acceptable (maxMsg : Nat) (m : RawMsg) : Prop where
  wellFormed : m.WellFormed
  window : m.wire.length ≤ maxMsg * 2
  intMax : m.wire.length ≤ intMax

/-- The bytes of a sequence of messages. -/
def wireAll (ms : List RawMsg) : List UInt8 := ms.flatMap wire

/-- `get_result`'s update with a decoded message: its strings end at their first
NUL byte. -/
def applyRaw (rmsg : RcvMsg) (m : RawMsg) : RcvMsg := applyMsg rmsg (m.map CStr.ofBuf)

theorem getResult_eq_ok {buf : List UInt8} {rmsg rmsg' : RcvMsg} {n : Nat} :
    getResult buf rmsg = .ok (n, rmsg') ↔ ∃ m, upack buf = .ok (m, n) ∧
      rmsg' = applyRaw rmsg m := by
  simp only [getResult, except_bind_eq_ok, Prod.exists, pure, Except.pure, Except.ok.injEq,
    Prod.mk.injEq]
  constructor
  · rintro ⟨m, _, hup, rfl, rfl⟩
    exact ⟨m, hup, rfl⟩
  · rintro ⟨m, hup, rfl⟩
    exact ⟨m, n, hup, rfl, rfl⟩

/-- The check after the fact: what was parsed lies within the valid bytes, and
the number of these fits a `ssize_t`. -/
theorem toSsize_sub_nonneg_iff {sz : SizeT} {nparse n : Nat} (hn : n ≤ intMax)
    (hsize : nparse ≤ sz.sizeMax) :
    ¬ sz.toSsize nparse - sz.toSsize n < 0 ↔ nparse ≤ sz.ssizeMax ∧ n ≤ nparse := by
  have hn' : n ≤ sz.ssizeMax := by
    cases sz <;> simp only [SizeT.ssizeMax, intMax] at hn ⊢ <;> omega
  rw [SizeT.toSsize_of_le hn']
  by_cases hss : nparse ≤ sz.ssizeMax
  · rw [SizeT.toSsize_of_le hss]
    omega
  · have hneg := SizeT.toSsize_neg (Nat.not_le.mp hss) hsize
    omega

/-- **One iteration** on arbitrary bytes succeeds if and only if the stream
begins with an acceptable message and the window fits a `ssize_t`. -/
theorem punpackStep_eq_ok {sz : SizeT} {w w' : Window} {bytes : List UInt8}
    (h : w.Holds maxMsg bytes) (hsize : maxMsg * 2 ≤ sz.sizeMax) :
    punpackStep sz w = .ok w' ↔ w.nparse ≤ sz.ssizeMax ∧ ∃ m rest, m.Acceptable maxMsg ∧
      bytes = m.wire ++ rest ∧ w' = w.advance m.wire.length (applyRaw w.rmsg m) := by
  have hvalid := h.valid
  constructor
  · intro hstep
    cases hres : getResult w.buf w.rmsg with
    | error e =>
        simp only [punpackStep, hres, bind, Except.bind] at hstep
        contradiction
    | ok r =>
        obtain ⟨m, hup, hr⟩ := getResult_eq_ok.mp hres
        obtain ⟨hwf, hint, hn, tail, hbuf⟩ := upack_eq_ok.mp hup
        rw [punpackStep_of_getResult sz hres, hn] at hstep
        split at hstep
        · contradiction
        · next hdiff =>
            obtain ⟨hss, hle⟩ := (toSsize_sub_nonneg_iff hint (by omega)).mp hdiff
            have htake := h.take_buf
            rw [hbuf, List.take_append, List.take_of_length_le hle] at htake
            refine ⟨hss, m, tail.take (w.nparse - (wire m).length) ++ bytes.drop (maxMsg * 2),
              ⟨hwf, by omega, hint⟩, ?_, ?_⟩
            · rw [← List.append_assoc, htake, List.take_append_drop]
            · rw [← Except.ok.inj hstep, hr]
  · rintro ⟨hss, m, rest, hm, rfl, rfl⟩
    obtain ⟨tail, hbuf⟩ := h.buf_eq hm.window
    have hup : upack w.buf = .ok (m, m.wire.length) :=
      upack_eq_ok.mpr ⟨hm.wellFormed, hm.intMax, rfl, tail, hbuf⟩
    have hle : m.wire.length ≤ w.nparse := by
      rw [h.nparse_eq, List.length_append]
      have hwin := hm.window
      omega
    rw [punpackStep_of_getResult sz (getResult_eq_ok.mpr ⟨m, hup, rfl⟩),
      if_neg ((toSsize_sub_nonneg_iff hm.intMax (by omega)).mpr ⟨hss, hle⟩)]

/-- An acceptable message is taken off the stream. -/
theorem Window.Holds.advance_wire {w : Window} {m : RawMsg} {rest : List UInt8}
    (h : w.Holds maxMsg (m.wire ++ rest)) (hm : m.Acceptable maxMsg) (rmsg : RcvMsg) :
    (w.advance m.wire.length rmsg).Holds maxMsg rest := by
  have hpos := eight_le_length_wire m
  have hle : m.wire.length ≤ w.nparse := by
    rw [h.nparse_eq, List.length_append]
    have hwin := hm.window
    omega
  have hnext := h.advance hle (by omega) rmsg
  rwa [List.drop_left] at hnext

/-! ## whole streams -/

/-- The stream is a sequence of acceptable messages, and the window fits a
`ssize_t`; the second component is what `get_result` made of them. -/
def Accepts (sz : SizeT) (maxMsg : Nat) (rmsg : RcvMsg) (bytes : List UInt8) (r : RcvMsg) : Prop :=
  min (maxMsg * 2) bytes.length ≤ sz.ssizeMax ∧ ∃ ms : List RawMsg, bytes = wireAll ms ∧
    (∀ m ∈ ms, m.Acceptable maxMsg) ∧ r = ms.foldl applyRaw rmsg

theorem accepts_nil {sz : SizeT} {rmsg r : RcvMsg} :
    Accepts sz maxMsg rmsg [] r ↔ r = rmsg := by
  constructor
  · rintro ⟨-, ms, hms, -, rfl⟩
    cases ms with
    | nil => rfl
    | cons m ms =>
        have hpos := eight_le_length_wire m
        have hlen := congrArg List.length hms
        simp only [wireAll, List.flatMap_cons, List.length_append, List.length_nil] at hlen
        omega
  · rintro rfl
    exact ⟨by simp, [], rfl, by simp, rfl⟩

/-- Only one message can be at the front. -/
theorem wire_append_inj {m m' : RawMsg} {rest rest' : List UInt8} (hm : m.Acceptable maxMsg)
    (hm' : m'.Acceptable maxMsg) (h : m.wire ++ rest = m'.wire ++ rest') :
    m = m' ∧ rest = rest' := by
  have hup : upack (m.wire ++ rest) = .ok (m, m.wire.length) :=
    upack_eq_ok.mpr ⟨hm.wellFormed, hm.intMax, rfl, rest, rfl⟩
  have hup' : upack (m.wire ++ rest) = .ok (m', m'.wire.length) :=
    upack_eq_ok.mpr ⟨hm'.wellFormed, hm'.intMax, rfl, rest', h⟩
  rw [hup] at hup'
  simp only [Except.ok.injEq, Prod.mk.injEq] at hup'
  obtain ⟨rfl, -⟩ := hup'
  exact ⟨rfl, List.append_cancel_left h⟩

/-- The first message of an accepted stream can be taken off. -/
theorem accepts_cons {sz : SizeT} {rmsg r : RcvMsg} {m : RawMsg} {rest : List UInt8}
    (hm : m.Acceptable maxMsg) (hss : min (maxMsg * 2) (m.wire ++ rest).length ≤ sz.ssizeMax) :
    Accepts sz maxMsg rmsg (m.wire ++ rest) r ↔ Accepts sz maxMsg (applyRaw rmsg m) rest r := by
  constructor
  · rintro ⟨-, ms, hms, hall, rfl⟩
    refine ⟨by rw [List.length_append] at hss; omega, ?_⟩
    cases ms with
    | nil =>
        have hpos := eight_le_length_wire m
        have hlen := congrArg List.length hms
        simp only [wireAll, List.flatMap_nil, List.length_append, List.length_nil] at hlen
        omega
    | cons m' ms =>
        rw [wireAll, List.flatMap_cons] at hms
        obtain ⟨hm', hrest⟩ := List.forall_mem_cons.mp hall
        obtain ⟨rfl, rfl⟩ := wire_append_inj hm hm' hms
        exact ⟨ms, rfl, hrest, rfl⟩
  · rintro ⟨-, ms, rfl, hall, rfl⟩
    exact ⟨hss, m :: ms, rfl, List.forall_mem_cons.mpr ⟨hm, hall⟩, rfl⟩

/-- **The loop** ends within its budget, and returns exactly what the stream
stands for. -/
theorem punpackLoop_accepts (sz : SizeT) (hmax : 0 < maxMsg) (hsize : maxMsg * 2 ≤ sz.sizeMax)
    (budget : Nat) (w : Window) (bytes : List UInt8) (h : w.Holds maxMsg bytes)
    (hbudget : bytes.length ≤ budget) :
    ∃ res, punpackLoop sz budget w = some res ∧
      ∀ r, res = .ok r ↔ Accepts sz maxMsg w.rmsg bytes r := by
  induction budget generalizing w bytes with
  | zero =>
      have hnil : bytes = [] := List.eq_nil_of_length_eq_zero (by omega)
      subst hnil
      have hz : w.nparse = 0 := by rw [h.nparse_eq]; simp
      refine ⟨.ok w.rmsg, punpackLoop_done 0 hz, fun r => ?_⟩
      simp only [accepts_nil, Except.ok.injEq]
      exact eq_comm
  | succ budget ih =>
      by_cases hz : w.nparse = 0
      · have hnil : bytes = [] := by
          have hn := h.nparse_eq
          exact List.eq_nil_of_length_eq_zero (by omega)
        subst hnil
        refine ⟨.ok w.rmsg, punpackLoop_done _ hz, fun r => ?_⟩
        simp only [accepts_nil, Except.ok.injEq]
        exact eq_comm
      · rw [punpackLoop, if_neg hz]
        cases hstep : punpackStep sz w with
        | error e =>
            refine ⟨.error e, rfl, fun r => ⟨by simp, ?_⟩⟩
            rintro ⟨hss, ms, rfl, hall, -⟩
            -- the first message would have been taken
            cases ms with
            | nil =>
                rw [h.nparse_eq] at hz
                simp [wireAll] at hz
            | cons m ms =>
                rw [← h.nparse_eq] at hss
                have hok := (punpackStep_eq_ok h hsize).mpr
                  ⟨hss, m, wireAll ms, hall m List.mem_cons_self, List.flatMap_cons, rfl⟩
                rw [hok] at hstep
                contradiction
        | ok w' =>
            obtain ⟨hss, m, rest, hm, rfl, rfl⟩ := (punpackStep_eq_ok h hsize).mp hstep
            have hpos := eight_le_length_wire m
            rw [List.length_append] at hbudget
            obtain ⟨res, hres, hiff⟩ := ih _ rest (h.advance_wire hm _) (by omega)
            refine ⟨res, hres, fun r => ?_⟩
            rw [hiff, Window.advance_rmsg, accepts_cons hm (by rw [← h.nparse_eq]; exact hss)]

/-- The files that `punpack` accepts, with the result: neither the initial
contents of the buffer nor the bytes left behind in it show. -/
theorem punpack_accepts_iff (sz : SizeT) (hmax : 0 < maxMsg) (hsize : maxMsg * 2 ≤ sz.sizeMax)
    (heap : Nat → UInt8) (file : List UInt8) :
    ∃ res, punpack sz maxMsg heap file = some res ∧
      ∀ r, res = .ok r ↔ ∃ rmsg, Accepts sz maxMsg rcvmsgCreate file rmsg ∧
        r = rcvmsgOrNull rmsg := by
  obtain ⟨res, hres, hiff⟩ := punpackLoop_accepts sz hmax hsize file.length _ file
    (holds_punpackInit heap (.inr hmax)) (Nat.le_refl _)
  refine ⟨res.map rcvmsgOrNull, by rw [punpack, hres]; rfl, fun r => ?_⟩
  have hinit : (punpackInit maxMsg heap file).rmsg = rcvmsgCreate := rfl
  rw [hinit] at hiff
  cases res with
  | error e =>
      refine ⟨(fun he => by cases he), ?_⟩
      rintro ⟨rmsg, hacc, -⟩
      have he := (hiff rmsg).mpr hacc
      cases he
  | ok rmsg =>
      constructor
      · intro he
        exact ⟨rmsg, (hiff rmsg).mp rfl, (Except.ok.inj he).symm⟩
      · rintro ⟨rmsg', hacc, rfl⟩
        rw [Except.ok.inj ((hiff rmsg').mpr hacc)]
        rfl

/-- **Only well-formed streams are accepted.**  On every file `punpack` ends; and
if it does not abort, the file is a concatenation of well-formed messages, none
longer than the buffer, the result is `get_result`'s update folded over them,
and it is the same whatever the buffer held before. -/
theorem punpack_wellFormed (sz : SizeT) (maxMsg : Nat) (hmax : 1 ≤ maxMsg)
    (hsize : maxMsg * 2 ≤ sz.sizeMax) (heap : Nat → UInt8) (file : List UInt8) :
    (punpack sz maxMsg heap file).isSome ∧
      ∀ r, punpack sz maxMsg heap file = some (.ok r) →
        (∃ ms : List RawMsg, file = ms.flatMap wire ∧
          (∀ m ∈ ms, m.WellFormed ∧ m.wire.length ≤ maxMsg * 2) ∧
          r = rcvmsgOrNull
            (ms.foldl (fun rmsg m => applyMsg rmsg (m.map CStr.ofBuf)) rcvmsgCreate)) ∧
        ∀ heap', punpack sz maxMsg heap' file = some (.ok r) := by
  obtain ⟨res, hres, hiff⟩ := punpack_accepts_iff sz hmax hsize heap file
  refine ⟨by rw [hres]; rfl, fun r hr => ?_⟩
  obtain ⟨rmsg, hacc, hnull⟩ := (hiff r).mp (Option.some.inj (hres.symm.trans hr))
  constructor
  · obtain ⟨-, ms, hfile, hall, hfold⟩ := hacc
    refine ⟨ms, hfile, fun m hm => ⟨(hall m hm).wellFormed, (hall m hm).window⟩, ?_⟩
    rw [hnull, hfold]
    rfl
  · intro heap'
    obtain ⟨res', hres', hiff'⟩ := punpack_accepts_iff sz hmax hsize heap' file
    rw [hres', (hiff' r).mpr ⟨rmsg, hacc, hnull⟩]

/-- A context and a failure whose text holds a NUL byte. -/
theorem punpack_wellFormed_nul :
    (punpack .w32 16 (fun _ => 7)
      (wire (.ctx .test) ++ wire (.fail [110, 0, 111]))).isSome ∧
    ∀ heap', punpack .w32 16 heap' (wire (.ctx .test) ++ wire (.fail [110, 0, 111])) =
      some (.ok (some
        { rcvmsgCreate with lastctx := .test, failctx := .test, msg := some (.lit "n") })) := by
  have h := punpack_wellFormed .w32 16 (by decide) (by decide) (fun _ => 7)
    (wire (.ctx .test) ++ wire (.fail [110, 0, 111]))
  exact ⟨h.1, (h.2 _ (by decide)).2⟩

/-! ## what is read -/

/-- How many bytes `upack_str` reads: the length word, and as many bytes as it
says. -/
def strReads (buf : List UInt8) : Nat :=
  match upackInt buf with
  | .ok (strsz, _) => 4 + strsz.toNat
  | .error _ => 4

/-- How many bytes the function that `upftab` holds for a type reads; a bad type
is refused before. -/
def fieldReads (type : UInt32) (buf : List UInt8) : Nat :=
  if type = 0 then 4
  else if type = 1 then strReads buf
  else if type = 2 then strReads buf + 4
  else if type = 3 then 4
  else 0

/-- How many bytes from the front of the buffer `upack`, and with it
`get_result`, reads. -/
def upackReads (obuf : List UInt8) : Nat :=
  match upackInt obuf with
  | .ok (type, buf) => 4 + fieldReads type buf
  | .error _ => 4

/-- The strings of a message fit their length words; its `int` field may have any
value. -/
def RawMsg.Sized : RawMsg → Prop
  | .fail msg => msg.length ≤ uint32Max
  | .loc file _ => file.length ≤ uint32Max
  | _ => True

/-- The bytes begin with a whole message, or with a whole type word that is not
one of the four. -/
def Whole (bytes : List UInt8) : Prop :=
  (∃ m : RawMsg, m.Sized ∧ m.wire <+: bytes) ∨ ∃ type : UInt32, 3 < type.toNat ∧
    packInt type <+: bytes

theorem strReads_wireStr {str : List UInt8} (h : str.length ≤ uint32Max) (tail : List UInt8) :
    strReads (wireStr str ++ tail) = (wireStr str).length := by
  have hlen : (UInt32.ofNat str.length).toNat = str.length := by
    rw [UInt32.toNat_ofNat']
    exact Nat.mod_eq_of_lt (by simp only [uint32Max] at h; omega)
  simp [strReads, wireStr, List.append_assoc, upackInt_packInt_append, hlen, length_packInt]

/-- On a whole message exactly its bytes are read. -/
theorem upackReads_wire {m : RawMsg} (h : m.Sized) (tail : List UInt8) :
    upackReads (m.wire ++ tail) = m.wire.length := by
  cases m with
  | ctx c =>
      simp [upackReads, fieldReads, wire, fields, CheckMsg.type, upackInt_packInt_append,
        length_packInt]
  | fail msg =>
      simp [upackReads, fieldReads, wire, fields, CheckMsg.type, upackInt_packInt_append,
        length_packInt, strReads_wireStr h]
  | loc file line =>
      simp [upackReads, fieldReads, wire, fields, CheckMsg.type, upackInt_packInt_append,
        length_packInt, strReads_wireStr h]
  | duration d =>
      simp [upackReads, fieldReads, wire, fields, CheckMsg.type, upackInt_packInt_append,
        length_packInt]

/-- On a bad type nothing is read after the type word. -/
theorem upackReads_badType {type : UInt32} (h : 3 < type.toNat) (tail : List UInt8) :
    upackReads (packInt type ++ tail) = 4 := by
  have hne (k : UInt32) (hk : k.toNat ≤ 3) : type ≠ k := by
    rintro rfl
    omega
  simp [upackReads, fieldReads, upackInt_packInt_append, hne 0 (by decide), hne 1 (by decide),
    hne 2 (by decide), hne 3 (by decide)]

/-- Four bytes are a word. -/
theorem exists_packInt {buf : List UInt8} (h : 4 ≤ buf.length) :
    ∃ val rest, buf = packInt val ++ rest := by
  match buf, h with
  | b0 :: b1 :: b2 :: b3 :: rest, _ => exact ⟨_, rest, upackInt_eq_ok.mp rfl⟩

/-- A string field whose bytes are all there. -/
theorem exists_wireStr {buf : List UInt8} (h : strReads buf ≤ buf.length) :
    ∃ str rest, str.length ≤ uint32Max ∧ buf = wireStr str ++ rest := by
  have hfour : 4 ≤ strReads buf := by
    unfold strReads
    split <;> omega
  obtain ⟨strsz, tail, rfl⟩ := exists_packInt (Nat.le_trans hfour h)
  simp only [strReads, upackInt_packInt_append, List.length_append, length_packInt] at h
  have hok : upackStr (packInt strsz ++ tail) = .ok
      (tail.take strsz.toNat, tail.drop strsz.toNat) := by
    simp only [upackStr, except_bind_eq_ok, except_guard_eq_ok, Prod.exists, upackInt_eq_ok]
    exact ⟨strsz, tail, rfl, by omega, rfl⟩
  obtain ⟨hmax, heq⟩ := upackStr_eq_ok.mp hok
  exact ⟨_, _, hmax, heq⟩

/-- The type word is always read. -/
theorem four_le_upackReads (buf : List UInt8) : 4 ≤ upackReads buf := by
  unfold upackReads
  split <;> omega

/-- The decoder stays within the bytes if and only if they begin with a whole
message or a bad type word. -/
theorem upackReads_le_length_iff (buf : List UInt8) : upackReads buf ≤ buf.length ↔ Whole buf := by
  constructor
  · intro h
    obtain ⟨type, tail, rfl⟩ := exists_packInt (Nat.le_trans (four_le_upackReads buf) h)
    simp only [upackReads, upackInt_packInt_append, List.length_append, length_packInt,
      Nat.add_le_add_iff_left, fieldReads] at h
    split at h
    · next ht =>
        obtain ⟨code, rest, rfl⟩ := exists_packInt h
        exact .inl ⟨.ctx ⟨code⟩, trivial, rest, by simp [wire, fields, CheckMsg.type, ht]⟩
    · split at h
      · next ht =>
          obtain ⟨str, rest, hmax, rfl⟩ := exists_wireStr h
          exact .inl ⟨.fail str, hmax, rest, by simp [wire, fields, CheckMsg.type, ht]⟩
      · split at h
        · next ht =>
            obtain ⟨file, rest, hmax, rfl⟩ := exists_wireStr (Nat.le_of_add_right_le h)
            rw [strReads_wireStr hmax, List.length_append] at h
            obtain ⟨line, rest, rfl⟩ := exists_packInt (Nat.le_of_add_le_add_left h)
            refine .inl ⟨.loc file line.toInt32, hmax, rest, ?_⟩
            simp [wire, fields, CheckMsg.type, ht]
        · split at h
          · next ht =>
              obtain ⟨d, rest, rfl⟩ := exists_packInt h
              exact .inl ⟨.duration d.toInt32, trivial,
                rest, by simp [wire, fields, CheckMsg.type, ht]⟩
          · next h0 h1 h2 h3 =>
              refine .inr ⟨type, ?_, tail, rfl⟩
              have hne (k : UInt32) (hk : type ≠ k) : type.toNat ≠ k.toNat :=
                fun he => hk (UInt32.toNat_inj.mp he)
              have hn0 := hne 0 h0
              have hn1 := hne 1 h1
              have hn2 := hne 2 h2
              have hn3 := hne 3 h3
              simp at hn0 hn1 hn2 hn3
              omega
  · rintro (⟨m, hm, tail, rfl⟩ | ⟨type, ht, tail, rfl⟩)
    · rw [upackReads_wire hm, List.length_append]
      omega
    · rw [upackReads_badType ht, List.length_append, length_packInt]
      omega

/-- The same for the front part of a longer buffer. -/
theorem upackReads_le_iff {buf : List UInt8} {k : Nat} (hk : k ≤ buf.length) :
    upackReads buf ≤ k ↔ Whole (buf.take k) := by
  simp only [Whole, List.prefix_take_iff]
  constructor
  · intro h
    rcases (upackReads_le_length_iff buf).mp (Nat.le_trans h hk) with
      ⟨m, hm, tail, rfl⟩ | ⟨type, ht, tail, rfl⟩
    · rw [upackReads_wire hm] at h
      exact .inl ⟨m, hm, List.prefix_append .., h⟩
    · rw [upackReads_badType ht] at h
      exact .inr ⟨type, ht, List.prefix_append .., by rw [length_packInt]; exact h⟩
  · rintro (⟨m, hm, ⟨tail, rfl⟩, hle⟩ | ⟨type, ht, ⟨tail, rfl⟩, hle⟩)
    · rw [upackReads_wire hm]
      exact hle
    · rw [upackReads_badType ht, ← length_packInt type]
      exact hle

/-- The windows that the loop of `punpack` comes to. -/
inductive Window.Reaches (sz : SizeT) (w : Window) : Window → Prop where
  | start : Reaches sz w w
  | step {v v' : Window} : Reaches sz w v → 0 < v.nparse → punpackStep sz v = .ok v' →
      Reaches sz w v'

theorem Window.Reaches.eq_of_nparse_eq_zero {sz : SizeT} {w v : Window} (hr : w.Reaches sz v)
    (hz : w.nparse = 0) : v = w := by
  induction hr with
  | start => rfl
  | step hr hpos hstep ih =>
      subst ih
      omega

/-- Every window that is reached stands behind some acceptable messages. -/
theorem Window.Reaches.holds {sz : SizeT} {w v : Window} {file : List UInt8}
    (hr : w.Reaches sz v) (h : w.Holds maxMsg file) (hsize : maxMsg * 2 ≤ sz.sizeMax) :
    ∃ ms rest, file = wireAll ms ++ rest ∧ (∀ m ∈ ms, m.Acceptable maxMsg) ∧
      (ms ≠ [] → min (maxMsg * 2) file.length ≤ sz.ssizeMax) ∧ v.Holds maxMsg rest := by
  induction hr with
  | start => exact ⟨[], file, rfl, by simp, by simp, h⟩
  | step hr hpos hstep ih =>
      obtain ⟨ms, rest, hfile, hall, hss, hv⟩ := ih
      obtain ⟨hfit, m, tail, hm, rfl, rfl⟩ := (punpackStep_eq_ok hv hsize).mp hstep
      refine ⟨ms ++ [m], tail, ?_, ?_, ?_, hv.advance_wire hm _⟩
      · simp [hfile, wireAll]
      · simpa [or_imp, forall_and] using ⟨hall, hm⟩
      · intro _
        cases ms with
        | nil =>
            rw [hv.nparse_eq] at hfit
            simpa [hfile, wireAll] using hfit
        | cons q ms => exact hss (by simp)

/-- Behind any acceptable messages a window is reached. -/
theorem reaches_of_acceptable {sz : SizeT} {w : Window} {ms : List RawMsg} {rest : List UInt8}
    (h : w.Holds maxMsg (wireAll ms ++ rest)) (hmax : 0 < maxMsg) (hsize : maxMsg * 2 ≤ sz.sizeMax)
    (hall : ∀ m ∈ ms, m.Acceptable maxMsg)
    (hss : ms ≠ [] → min (maxMsg * 2) (wireAll ms ++ rest).length ≤ sz.ssizeMax) :
    ∃ v, w.Reaches sz v ∧ v.Holds maxMsg rest := by
  induction ms using List.reverseRecOn generalizing rest with
  | nil => exact ⟨w, .start, h⟩
  | append_singleton ms m ih =>
      have hsplit : wireAll (ms ++ [m]) ++ rest = wireAll ms ++ (m.wire ++ rest) := by
        simp [wireAll]
      rw [hsplit] at h hss
      simp only [List.mem_append, List.mem_singleton, or_imp, forall_and, forall_eq] at hall
      have hss := hss (by simp)
      obtain ⟨v, hr, hv⟩ := ih h hall.1 fun _ => hss
      have hpos := eight_le_length_wire m
      have hn := hv.nparse_eq
      rw [List.length_append] at hn hss
      rw [List.length_append] at hss
      refine ⟨_, hr.step (by omega) ((punpackStep_eq_ok hv hsize).mpr
        ⟨by omega, m, rest, hall.2, rfl, rfl⟩), hv.advance_wire hall.2 _⟩

/-- `get_max_msg_size() * 2` as a `size_t` is twice this limit. -/
def halfWrapped (sz : SizeT) (maxMsg : Nat) : Nat := maxMsg % 2 ^ (sz.bits - 1)

theorem halfWrapped_mul_two (sz : SizeT) (maxMsg : Nat) :
    halfWrapped sz maxMsg * 2 = maxMsg * 2 % 2 ^ sz.bits := by
  cases sz <;> simp only [halfWrapped, SizeT.bits] <;> omega

/-- **Reading valid bytes only.**  For every limit and every file, all bytes that
`get_result` reads while `punpack` processes the file are among the `nparse`
valid ones if and only if the file is cut into whole messages: wherever the
loop comes to, what is left in the window begins with a whole message or a bad
type word. -/
theorem reads_within_iff (sz : SizeT) (limit : Nat) (heap : Nat → UInt8) (file : List UInt8) :
    (∀ w, (punpackInit (halfWrapped sz limit) heap file).Reaches sz w → 0 < w.nparse →
      upackReads w.buf ≤ w.nparse) ↔
    ∀ ms rest, file = wireAll ms ++ rest → (∀ m ∈ ms, m.Acceptable (halfWrapped sz limit)) →
      (ms ≠ [] → min (limit * 2 % 2 ^ sz.bits) file.length ≤ sz.ssizeMax) →
      0 < limit * 2 % 2 ^ sz.bits → rest ≠ [] → Whole (rest.take (limit * 2 % 2 ^ sz.bits)) := by
  have hsize : halfWrapped sz limit * 2 ≤ sz.sizeMax := by
    rw [halfWrapped_mul_two]
    cases sz <;> simp only [SizeT.bits, SizeT.sizeMax] <;> omega
  rw [← halfWrapped_mul_two]
  constructor
  · intro h ms rest hfile hall hss hpos hne
    have hmax : 0 < halfWrapped sz limit := by omega
    have hholds : (punpackInit (halfWrapped sz limit) heap file).Holds
        (halfWrapped sz limit) file :=
      holds_punpackInit heap (.inr hmax)
    rw [hfile] at hholds hss
    obtain ⟨v, hr, hv⟩ := reaches_of_acceptable hholds hmax hsize hall hss
    have hlen := List.length_pos_iff.mpr hne
    have hn := hv.nparse_eq
    have hreads := h v (by rw [hfile]; exact hr) (by omega)
    rw [upackReads_le_iff (by rw [hv.size]; exact hv.valid), hv.take_buf] at hreads
    exact hreads
  · intro h w hr hpos
    by_cases hmax : 0 < halfWrapped sz limit
    · obtain ⟨ms, rest, hfile, hall, hss, hv⟩ :=
        hr.holds (holds_punpackInit heap (.inr hmax)) hsize
      have hn := hv.nparse_eq
      have hne : rest ≠ [] := by
        rintro rfl
        rw [List.length_nil] at hn
        omega
      rw [upackReads_le_iff (by rw [hv.size]; exact hv.valid), hv.take_buf]
      exact h ms rest hfile hall hss (by omega) hne
    · -- a buffer of no bytes: nothing is read, and the loop is not entered
      have hz : (punpackInit (halfWrapped sz limit) heap file).nparse = 0 := by
        rw [nparse_punpackInit]
        omega
      rw [hr.eq_of_nparse_eq_zero hz] at hpos
      omega

/-- A file that was cut off inside its first type word: three bytes of the buffer
are read that no `fread` has filled. -/
theorem truncated_word_read :
    ¬ ∀ w, (punpackInit (halfWrapped .w64 4096) (fun _ => 0xAA) [0]).Reaches .w64 w → 0 < w.nparse →
      upackReads w.buf ≤ w.nparse := by
  intro h
  have hn : (punpackInit (halfWrapped .w64 4096) (fun _ => 0xAA) [0]).nparse = 1 := rfl
  have hreads := h _ .start (by rw [hn]; decide)
  have hfour := four_le_upackReads (punpackInit (halfWrapped .w64 4096) (fun _ => 0xAA) [0]).buf
  omega

end LibCheck
