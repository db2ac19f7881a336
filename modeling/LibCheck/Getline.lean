import LibCheck.StrPrintf

/-!
# LibCheck.Getline

`getline` of `getline.c`, for systems that have none.

* `getline_reads` — a call reads one line, into memory that is large enough.
* `getlines_flatten` — line after line, a stream is read completely.
-/

namespace LibCheck.Getline

open Snprintf (erealloc length_erealloc Holds)

/-! ## the code -/

/-- `INITIAL_SIZE`. -/
def initialSize : Nat := 16

/-- `DELIMITER`. -/
def delimiter : UInt8 := 10

/-- `*lineptr` and `*n`: the memory for a line, unless it is `NULL`, and its size as the
caller knows it. -/
structure LineBuf where
  lineptr : Option (List UInt8)
  n : Nat

/-- The variables of `getline` in its loop, and what is left of the stream. -/
structure Reading where
  written : Nat
  n : Nat
  line : List UInt8
  stream : List UInt8

/-- What `getline` returns, what it leaves in the memory, and the stream. -/
structure Line where
  written : Int
  buf : LineBuf
  stream : List UInt8

/-- A store to memory; it is not defined outside. -/
def store (line : List UInt8) (i : Nat) (character : UInt8) : Option (List UInt8) :=
  if i < line.length then some (line.set i character) else none

/-- The loop of `getline`. -/
def getlineLoop (junk : Nat → UInt8) (written n : Nat) (line : List UInt8) :
    (stream : List UInt8) → Option Reading
  | [] => some ⟨written, n, line, []⟩
  | character :: stream => do
      let written := written + 1
      let size := if written ≥ n then n * 2 % 2 ^ 64 else n
      let memory := if written ≥ n then erealloc junk line size else line
      let line ← store memory (written - 1) character
      if character = delimiter then some ⟨written, size, line, stream⟩
      else getlineLoop junk written size line stream

/-- The memory that a call begins with. -/
def LineBuf.init (junk : Nat → UInt8) (b : LineBuf) : LineBuf :=
  if b.lineptr = none ∨ b.n < initialSize then ⟨some (erealloc junk [] initialSize), initialSize⟩
  else b

/-- `getline`. -/
def getline (junk : Nat → UInt8) (b : LineBuf) (stream : List UInt8) : Option Line := do
  let b := b.init junk
  let r ← getlineLoop junk 0 b.n (b.lineptr.getD []) stream
  let line ← store r.line r.written 0
  some ⟨r.written, ⟨some line, r.n⟩, r.stream⟩

/-- A caller reads line after line into the same memory, for at most `fuel` calls, until
there is nothing left. -/
def getlines (junk : Nat → UInt8) : (fuel : Nat) → LineBuf → List UInt8 →
    Option (List (List UInt8))
  | 0, _, _ => none
  | fuel + 1, b, stream => do
      let l ← getline junk b stream
      if l.written = 0 then some []
      else do
        let lines ← getlines junk fuel l.buf l.stream
        some ((l.buf.lineptr.getD []).take l.written.toNat :: lines)

/-! ## lines -/

/-- The first line, with its newline if there is one. -/
def firstLine : List UInt8 → List UInt8
  | [] => []
  | c :: cs => if c = delimiter then [c] else c :: firstLine cs

theorem firstLine_append_drop (cs : List UInt8) :
    firstLine cs ++ cs.drop (firstLine cs).length = cs := by
  induction cs with
  | nil => rfl
  | cons c cs ih =>
      rw [firstLine]
      split
      · rfl
      · rw [List.length_cons, List.drop_succ_cons, List.cons_append, ih]

theorem length_firstLine_pos {cs : List UInt8} (h : cs ≠ []) : 0 < (firstLine cs).length := by
  cases cs with
  | nil => exact absurd rfl h
  | cons c cs =>
      rw [firstLine]
      split <;> exact Nat.succ_pos _

/-- Nothing is in a line after its newline. -/
theorem delimiter_notMem_dropLast (cs : List UInt8) : delimiter ∉ (firstLine cs).dropLast := by
  induction cs with
  | nil => exact List.not_mem_nil
  | cons c cs ih =>
      rw [firstLine]
      split
      · exact List.not_mem_nil
      · rename_i hc
        cases hl : firstLine cs with
        | nil => exact List.not_mem_nil
        | cons d l =>
            rw [hl] at ih
            rw [List.dropLast_cons_cons, List.mem_cons, not_or]
            exact ⟨fun he => hc he.symm, ih⟩

/-- A line without a newline is the last one. -/
theorem getLast?_firstLine {cs : List UInt8} (h : cs.drop (firstLine cs).length ≠ []) :
    (firstLine cs).getLast? = some delimiter := by
  induction cs with
  | nil => exact absurd rfl h
  | cons c cs ih =>
      rw [firstLine] at h ⊢
      split at h
      · rename_i hc
        rw [if_pos hc, hc]
        rfl
      · rename_i hc
        rw [List.length_cons, List.drop_succ_cons] at h
        rw [if_neg hc, List.getLast?_cons, ih h]
        rfl

/-! ## a call -/

theorem take_set_self {line : List UInt8} {i : Nat} (h : i < line.length) (c : UInt8) :
    (line.set i c).take (i + 1) = line.take i ++ [c] := by
  rw [List.set_eq_take_append_cons_drop, if_pos h, List.take_append,
    List.take_of_length_le (by rw [List.length_take]; omega), List.length_take,
    Nat.min_eq_left h.le, Nat.add_sub_cancel_left]
  rfl

theorem take_erealloc {junk : Nat → UInt8} {line : List UInt8} {i size : Nat}
    (h : i ≤ line.length) (hsize : i ≤ size) :
    (erealloc junk line size).take i = line.take i := by
  rw [erealloc, List.take_append_of_le_length (by rw [List.length_take]; omega), List.take_take,
    Nat.min_eq_left hsize]

/-- The loop reads the rest of a line, and there is always room for the NUL. -/
theorem getlineLoop_reads (junk : Nat → UInt8) {written n : Nat} {line : List UInt8}
    (stream : List UInt8) (hroom : written < n) (hn : n ≤ line.length)
    (hsize : written + stream.length < 2 ^ 63) :
    ∃ r, getlineLoop junk written n line stream = some r ∧
      r.written = written + (firstLine stream).length ∧ r.written < r.n ∧
      r.n ≤ r.line.length ∧ r.line.take r.written = line.take written ++ firstLine stream ∧
      r.stream = stream.drop (firstLine stream).length := by
  induction stream generalizing written n line with
  | nil => exact ⟨_, rfl, rfl, hroom, hn, (List.append_nil _).symm, rfl⟩
  | cons c stream ih =>
      rw [List.length_cons] at hsize
      -- after the memory has grown
      obtain ⟨size, memory, hloop, hroom', hn', htake⟩ : ∃ size memory,
          getlineLoop junk written n line (c :: stream) =
            (store memory written c).bind (fun line =>
              if c = delimiter then some ⟨written + 1, size, line, stream⟩
              else getlineLoop junk (written + 1) size line stream) ∧
          written + 1 < size ∧ size ≤ memory.length ∧ memory.take written = line.take written := by
        by_cases hfull : written + 1 ≥ n
        · refine ⟨n * 2 % 2 ^ 64, erealloc junk line (n * 2 % 2 ^ 64), ?_, ?_, ?_, ?_⟩
          · rw [getlineLoop]
            simp only [if_pos hfull]
            rfl
          · rw [Nat.mod_eq_of_lt (by omega)]
            omega
          · rw [length_erealloc]
          · refine take_erealloc (by omega) ?_
            rw [Nat.mod_eq_of_lt (by omega)]
            omega
        · refine ⟨n, line, ?_, by omega, hn, rfl⟩
          rw [getlineLoop]
          simp only [if_neg hfull]
          rfl
      have hin : written < memory.length := by omega
      have hset : (memory.set written c).take (written + 1) = line.take written ++ [c] := by
        rw [take_set_self hin, htake]
      rw [hloop, store, if_pos hin, Option.bind_some, firstLine]
      by_cases hc : c = delimiter
      · rw [if_pos hc, if_pos hc]
        refine ⟨_, rfl, rfl, hroom', ?_, hset, rfl⟩
        rw [List.length_set]
        exact hn'
      · rw [if_neg hc, if_neg hc]
        have hnset : size ≤ (memory.set written c).length := by
          rw [List.length_set]
          exact hn'
        obtain ⟨r, hr, hwritten, hroomr, hnr, htaker, hstream⟩ := ih hroom' hnset (by omega)
        refine ⟨r, hr, ?_, hroomr, hnr, ?_, hstream⟩
        · rw [hwritten, List.length_cons]
          omega
        · rw [htaker, hset, List.append_assoc]
          rfl

/-- The memory is as large as the caller says. -/
def LineBuf.Valid (b : LineBuf) : Prop := ∀ line, b.lineptr = some line → b.n ≤ line.length

theorem LineBuf.Valid.init {b : LineBuf} (h : b.Valid) (junk : Nat → UInt8) :
    0 < (b.init junk).n ∧ (b.init junk).n ≤ ((b.init junk).lineptr.getD []).length := by
  rw [LineBuf.init]
  split
  · exact ⟨Nat.succ_pos 15, (length_erealloc junk [] initialSize).ge⟩
  · rename_i hb
    rw [not_or] at hb
    obtain ⟨line, hline⟩ := Option.ne_none_iff_exists'.mp hb.1
    rw [hline]
    refine ⟨?_, h line hline⟩
    have hinitial : 0 < initialSize := Nat.succ_pos 15
    omega

/-- **One line is read**, completely and with a NUL, and nothing is stored outside of the
memory. -/
theorem getline_reads (junk : Nat → UInt8) {b : LineBuf} {stream : List UInt8} (h : b.Valid)
    (hsize : stream.length < 2 ^ 63) :
    ∃ l line, getline junk b stream = some l ∧ l.buf.Valid ∧
      l.written = (firstLine stream).length ∧ l.buf.lineptr = some line ∧
      Holds line (firstLine stream) ∧ l.stream = stream.drop (firstLine stream).length := by
  obtain ⟨hpos, hn⟩ := h.init junk
  obtain ⟨r, hr, hwritten, hroom, hnr, htake, hstream⟩ :=
    getlineLoop_reads junk stream hpos hn (by omega)
  rw [List.take_zero, List.nil_append] at htake
  rw [Nat.zero_add] at hwritten
  have hin : r.written < r.line.length := by omega
  refine ⟨⟨r.written, ⟨some (r.line.set r.written 0), r.n⟩, r.stream⟩, r.line.set r.written 0,
    ?_, ?_, congrArg Nat.cast hwritten, rfl, ?_, hstream⟩
  · rw [getline, hr]
    show (store r.line r.written 0).bind _ = _
    rw [store, if_pos hin]
    rfl
  · intro line hline
    cases hline
    rw [List.length_set]
    exact hnr
  · rw [Holds, ← hwritten, take_set_self hin, htake]

/-! ## a whole stream -/

/-- **Nothing is lost and nothing is read twice**: the lines that a caller reads are the
stream.  Each has its newline at its end, and only the last one may have none. -/
theorem getlines_flatten {junk : Nat → UInt8} {b : LineBuf} {stream : List UInt8} {fuel : Nat}
    (h : b.Valid) (hsize : stream.length < 2 ^ 63) (hfuel : stream.length < fuel) :
    ∃ lines, getlines junk fuel b stream = some lines ∧ lines.flatten = stream ∧
      (∀ line ∈ lines, line ≠ [] ∧ delimiter ∉ line.dropLast) ∧
      ∀ line ∈ lines.dropLast, line.getLast? = some delimiter := by
  induction fuel generalizing b stream with
  | zero => exact absurd hfuel (Nat.not_lt_zero _)
  | succ fuel ih =>
      obtain ⟨l, line, hl, hvalid, hwritten, hline, hholds, hstream⟩ :=
        getline_reads junk h hsize
      have hcall : getlines junk (fuel + 1) b stream =
          if l.written = 0 then some []
          else (getlines junk fuel l.buf l.stream).bind fun lines =>
            some ((l.buf.lineptr.getD []).take l.written.toNat :: lines) := by
        rw [getlines, hl]
        rfl
      by_cases hempty : stream = []
      · subst hempty
        have hzero : l.written = 0 := hwritten
        rw [hcall, if_pos hzero]
        exact ⟨[], rfl, rfl, fun _ hm => absurd hm List.not_mem_nil,
          fun _ hm => absurd hm List.not_mem_nil⟩
      · have hpos := length_firstLine_pos hempty
        have hread : (l.buf.lineptr.getD []).take l.written.toNat = firstLine stream := by
          have htake := congrArg (List.take (firstLine stream).length) hholds
          rw [List.take_take, Nat.min_eq_left (Nat.le_succ _), List.take_left] at htake
          rw [hline, hwritten]
          exact htake
        have hrest : l.stream.length < stream.length := by
          have hpos' := List.length_pos_iff.mpr hempty
          rw [hstream, List.length_drop]
          omega
        obtain ⟨lines, hlines, hflat, hmem, hlast⟩ := ih hvalid (hrest.trans hsize)
          (by omega)
        refine ⟨firstLine stream :: lines, ?_, ?_, ?_, ?_⟩
        · rw [hcall, if_neg (by omega), hlines, hread]
          rfl
        · rw [List.flatten_cons, hflat, hstream, firstLine_append_drop]
        · exact List.forall_mem_cons.mpr
            ⟨⟨List.ne_nil_of_length_pos hpos, delimiter_notMem_dropLast stream⟩, hmem⟩
        · cases lines with
          | nil => exact fun _ hm => absurd hm List.not_mem_nil
          | cons line' lines =>
              rw [List.dropLast_cons_cons]
              refine List.forall_mem_cons.mpr ⟨getLast?_firstLine fun hnil => ?_, hlast⟩
              rw [hstream, hnil, List.flatten_cons, List.append_eq_nil_iff] at hflat
              exact (hmem line' List.mem_cons_self).1 hflat.1

/-- Two lines, the second one without a newline, and no memory yet. -/
theorem getlines_flatten_two :
    ∃ lines, getlines (fun _ => 0) 4 ⟨none, 0⟩ [97, 10, 98] = some lines ∧
      lines.flatten = [97, 10, 98] ∧
      (∀ line ∈ lines, line ≠ [] ∧ delimiter ∉ line.dropLast) ∧
      ∀ line ∈ lines.dropLast, line.getLast? = some delimiter :=
  getlines_flatten (fun _ he => absurd he (Option.some_ne_none _).symm) (by decide) (by decide)

end LibCheck.Getline
