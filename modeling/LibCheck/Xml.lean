import Mathlib.Data.List.TakeWhile

/-!
# LibCheck.Xml

A reader of XML 1.0 documents without a document type: UTF-8, the line ends, the
declaration, tags with attributes, character data, references to characters and
to the five predefined entities, `CDATA` sections, comments and processing
instructions.  What it refuses is not well-formed.

* `decodeUtf8` — the characters of a byte sequence.
* `content`, `document` — the reader, over characters.
* `Reads` — what stands in front of a text is read whatever follows; one rule for
  each kind of content.
* `readBytes_eq` — a document is read from its parts.
-/

namespace LibCheck.Xml

-- a bound by a list of characters is decided along the list, not over all characters
attribute [instance (high)] List.decidableBAll

/-! ## characters -/

/-- UTF-8. -/
def encodeUtf8 (cs : List Char) : List UInt8 := cs.flatMap String.utf8EncodeChar

/-- The characters that a byte sequence encodes in UTF-8. -/
def decodeUtf8 (bytes : List UInt8) : Option (List Char) :=
  bytes.toByteArray.utf8Decode?.map Array.toList

@[simp] theorem decodeUtf8_encodeUtf8 (cs : List Char) : decodeUtf8 (encodeUtf8 cs) = some cs := by
  rw [decodeUtf8, encodeUtf8, show (cs.flatMap String.utf8EncodeChar).toByteArray =
    cs.utf8Encode from rfl,
    List.utf8Decode?_utf8Encode]
  rfl

@[simp] theorem encodeUtf8_nil : encodeUtf8 [] = [] := rfl

@[simp] theorem encodeUtf8_append (cs ds : List Char) :
    encodeUtf8 (cs ++ ds) = encodeUtf8 cs ++ encodeUtf8 ds := List.flatMap_append

/-- The code of the character lies in one of the ranges. -/
def inRanges (ranges : List (Nat × Nat)) (c : Char) : Bool :=
  ranges.any fun r => r.1 ≤ c.toNat && c.toNat ≤ r.2

/-- `Char` -/
def isChar (c : Char) : Bool :=
  inRanges [(0x9, 0xA), (0xD, 0xD), (0x20, 0xD7FF), (0xE000, 0xFFFD), (0x10000, 0x10FFFF)] c

/-- `S` -/
def isSpace (c : Char) : Bool := c = ' ' || c = '\t' || c = '\n' || c = '\r'

/-- `NameStartChar` -/
def isNameStart (c : Char) : Bool :=
  inRanges [(58, 58), (65, 90), (95, 95), (97, 122), (0xC0, 0xD6), (0xD8, 0xF6), (0xF8, 0x2FF),
    (0x370, 0x37D), (0x37F, 0x1FFF), (0x200C, 0x200D), (0x2070, 0x218F), (0x2C00, 0x2FEF),
    (0x3001, 0xD7FF), (0xF900, 0xFDCF), (0xFDF0, 0xFFFD), (0x10000, 0xEFFFF)] c

/-- `NameChar` -/
def isNameChar (c : Char) : Bool :=
  isNameStart c ||
    inRanges [(45, 46), (48, 57), (0xB7, 0xB7), (0x300, 0x36F), (0x203F, 0x2040)] c

/-- The line ends of a text, turned into line feeds. -/
def normalizeEol : List Char → List Char
  | [] => []
  | '\r' :: '\n' :: cs => '\n' :: normalizeEol cs
  | '\r' :: cs => '\n' :: normalizeEol cs
  | c :: cs => c :: normalizeEol cs

@[simp] theorem normalizeEol_cons_of_ne {c : Char} (hc : c ≠ '\r') (cs : List Char) :
    normalizeEol (c :: cs) = c :: normalizeEol cs := by
  rw [normalizeEol]
  · exact fun _ he _ => hc he
  · exact hc

theorem normalizeEol_append_of_notMem {as ds : List Char} (h : '\r' ∉ as) :
    normalizeEol (as ++ ds) = as ++ normalizeEol ds := by
  induction as with
  | nil => rfl
  | cons a as ih =>
      simp only [List.mem_cons, not_or] at h
      rw [List.cons_append, normalizeEol_cons_of_ne (Ne.symm h.1), ih h.2, List.cons_append]

theorem normalizeEol_of_notMem {cs : List Char} (h : '\r' ∉ cs) : normalizeEol cs = cs := by
  have h := @normalizeEol_append_of_notMem cs [] h
  simpa [normalizeEol] using h

/-! ## names and references -/

/-- `Name` -/
def name : List Char → Option (List Char × List Char)
  | [] => none
  | c :: cs =>
      if isNameStart c then some (c :: cs.takeWhile isNameChar, cs.dropWhile isNameChar) else none

/-- The value of a digit. -/
def digit (c : Char) : Option Nat :=
  if '0' ≤ c ∧ c ≤ '9' then some (c.toNat - 48)
  else if 'a' ≤ c ∧ c ≤ 'f' then some (c.toNat - 87)
  else if 'A' ≤ c ∧ c ≤ 'F' then some (c.toNat - 55)
  else none

/-- The value of a sequence of digits. -/
def number (base : Nat) (cs : List Char) : Option Nat :=
  if cs = [] then none
  else cs.foldlM (fun n c => do
    let d ← digit c
    if d < base then some (n * base + d) else none) 0

/-- The character with a given number. -/
def charOf (n : Nat) : Option Char :=
  if n.isValidChar ∧ isChar (Char.ofNat n) then some (Char.ofNat n) else none

/-- What stands between `&` and `;`: `CharRef`, or the name of a predefined
entity. -/
def refChar : List Char → Option Char
  | '#' :: 'x' :: cs => (number 16 cs).bind charOf
  | '#' :: cs => (number 10 cs).bind charOf
  | cs =>
      if cs = ['q', 'u', 'o', 't'] then some '"'
      else if cs = ['a', 'p', 'o', 's'] then some '\''
      else if cs = ['l', 't'] then some '<'
      else if cs = ['g', 't'] then some '>'
      else if cs = ['a', 'm', 'p'] then some '&'
      else none

/-- `Reference`, after its `&`. -/
def reference (cs : List Char) : Option (Char × List Char) :=
  match cs.dropWhile (· ≠ ';') with
  | [] => none
  | _ :: rest => (refChar (cs.takeWhile (· ≠ ';'))).map fun c => (c, rest)

/-! ## tags -/

/-- `AttValue`, after its first quote. -/
def attValue (quote : Char) : Nat → List Char → Option (List Char × List Char)
  | 0, _ => none
  | _ + 1, [] => none
  | n + 1, c :: cs =>
      if c = quote then some ([], cs)
      else if c = '<' then none
      else if c = '&' then do
        let (d, cs) ← reference cs
        let (value, cs) ← attValue quote n cs
        some (d :: value, cs)
      else do
        let (value, cs) ← attValue quote n cs
        some ((if isSpace c then ' ' else c) :: value, cs)

/-- `Attribute` -/
def attrib (cs : List Char) : Option ((List Char × List Char) × List Char) := do
  let (attName, cs) ← name cs
  match cs.dropWhile isSpace with
  | '=' :: cs =>
      match cs.dropWhile isSpace with
      | quote :: cs =>
          if quote = '"' ∨ quote = '\'' then do
            let (value, cs) ← attValue quote (cs.length + 1) cs
            some ((attName, value), cs)
          else none
      | [] => none
  | _ => none

/-- `(S Attribute)* S?` -/
def attributes : Nat → List Char → Option (List (List Char × List Char) × List Char)
  | 0, _ => none
  | _ + 1, [] => some ([], [])
  | n + 1, c :: cs =>
      if isSpace c then
        match cs.dropWhile isSpace with
        | [] => some ([], [])
        | d :: ds =>
            if isNameStart d then do
              let (att, cs) ← attrib (d :: ds)
              let (atts, cs) ← attributes n cs
              some (att :: atts, cs)
            else some ([], d :: ds)
      else some ([], c :: cs)

/-- `STag` or `EmptyElemTag`, after its `<`: the name, the attributes, and whether
the tag is that of an empty element. -/
def tag (cs : List Char) :
    Option (List Char × List (List Char × List Char) × Bool × List Char) := do
  let (elemName, cs) ← name cs
  let (atts, cs) ← attributes (cs.length + 1) cs
  if (atts.map Prod.fst).Nodup then
    match cs with
    | '>' :: cs => some (elemName, atts, false, cs)
    | '/' :: '>' :: cs => some (elemName, atts, true, cs)
    | _ => none
  else none

/-- `ETag`, after its `</`. -/
def endTag (elemName cs : List Char) : Option (List Char) := do
  let (endName, cs) ← name cs
  match cs.dropWhile isSpace with
  | '>' :: cs => if endName = elemName then some cs else none
  | _ => none

/-! ## other markup -/

/-- `Comment`, after its `<!--`. -/
def comment : List Char → Option (List Char)
  | [] => none
  | '-' :: '-' :: '>' :: cs => some cs
  | '-' :: '-' :: _ => none
  | _ :: cs => comment cs

/-- `CDSect`, after its `<![CDATA[`. -/
def cdata : List Char → Option (List Char × List Char)
  | [] => none
  | ']' :: ']' :: '>' :: cs => some ([], cs)
  | c :: cs => (cdata cs).map fun p => (c :: p.1, p.2)

/-- The end of a processing instruction. -/
def piEnd : List Char → Option (List Char)
  | [] => none
  | '?' :: '>' :: cs => some cs
  | _ :: cs => piEnd cs

/-- `PI`, after its `<?`. -/
def procInst (cs : List Char) : Option (List Char) := do
  let (target, cs) ← name cs
  if target.map Char.toLower = ['x', 'm', 'l'] then none
  else
    match cs with
    | '?' :: '>' :: cs => some cs
    | c :: cs => if isSpace c then piEnd cs else none
    | [] => none

/-! ## content -/

/-- A part of the content of an element. -/
inductive Node where
  | char (c : Char)
  | elem (name : List Char) (atts : List (List Char × List Char)) (children : List Node)

/-- `content`: what it holds, and the text from the end tag on. -/
def content : Nat → List Char → Option (List Node × List Char)
  | 0, _ => none
  | _ + 1, [] => some ([], [])
  | n + 1, c :: cs =>
      if c = '<' then
        match cs with
        | '/' :: cs => some ([], '<' :: '/' :: cs)
        | '!' :: '-' :: '-' :: cs => (comment cs).bind (content n)
        | '!' :: '[' :: 'C' :: 'D' :: 'A' :: 'T' :: 'A' :: '[' :: cs => do
            let (data, cs) ← cdata cs
            let (nodes, cs) ← content n cs
            some (data.map .char ++ nodes, cs)
        | '?' :: cs => (procInst cs).bind (content n)
        | cs => do
            let (elemName, atts, empty, cs) ← tag cs
            let (children, cs) ← if empty then some ([], cs) else do
              let (children, cs) ← content n cs
              match cs with
              | '<' :: '/' :: cs => do
                  let cs ← endTag elemName cs
                  some (children, cs)
              | _ => none
            let (nodes, cs) ← content n cs
            some (.elem elemName atts children :: nodes, cs)
      else if c = '&' then do
        let (d, cs) ← reference cs
        let (nodes, cs) ← content n cs
        some (.char d :: nodes, cs)
      else if c = ']' ∧ [']', '>'] <+: cs then none
      else do
        let (nodes, cs) ← content n cs
        some (.char c :: nodes, cs)

/-- `element`, after its `<`. -/
def element (cs : List Char) : Option (Node × List Char) := do
  let (elemName, atts, empty, cs) ← tag cs
  if empty then some (.elem elemName atts [], cs)
  else do
    let (children, cs) ← content (cs.length + 1) cs
    match cs with
    | '<' :: '/' :: cs => do
        let cs ← endTag elemName cs
        some (.elem elemName atts children, cs)
    | _ => none

/-! ## documents -/

/-- `Misc*` -/
def misc : Nat → List Char → Option (List Char)
  | 0, _ => none
  | _ + 1, [] => some []
  | n + 1, c :: cs =>
      if isSpace c then misc n cs
      else
        match c :: cs with
        | '<' :: '!' :: '-' :: '-' :: cs => (comment cs).bind (misc n)
        | '<' :: '?' :: cs => (procInst cs).bind (misc n)
        | cs => some cs

/-- The names of the declaration, in the order in which they may stand. -/
def declNames : List (List (List Char)) :=
  let version := "version".toList
  let encoding := "encoding".toList
  let standalone := "standalone".toList
  [[version], [version, encoding], [version, standalone], [version, encoding, standalone]]

/-- `XMLDecl?` -/
def xmlDecl : List Char → Option (List Char)
  | '<' :: '?' :: 'x' :: 'm' :: 'l' :: c :: cs =>
      if isSpace c then do
        let (atts, cs) ← attributes (cs.length + 2) (c :: cs)
        match cs with
        | '?' :: '>' :: cs => if atts.map Prod.fst ∈ declNames then some cs else none
        | _ => none
      else some ('<' :: '?' :: 'x' :: 'm' :: 'l' :: c :: cs)
  | cs => some cs

/-- `document`: its root element. -/
def document (cs : List Char) : Option Node := do
  let cs := normalizeEol cs
  if cs.all isChar then do
    let cs ← xmlDecl cs
    match ← misc (cs.length + 1) cs with
    | '<' :: cs => do
        let (root, cs) ← element cs
        match ← misc (cs.length + 1) cs with
        | [] => some root
        | _ => none
    | _ => none
  else none

/-- The document that a byte sequence is. -/
def readBytes (bytes : List UInt8) : Option Node := (decodeUtf8 bytes).bind document

/-- The text that a byte sequence is as the content of an element, if it holds
nothing but text. -/
def readText (bytes : List UInt8) : Option (List Char) := do
  let cs ← decodeUtf8 bytes
  let cs := normalizeEol cs
  if cs.all isChar then
    match content (cs.length + 1) cs with
    | some (nodes, []) => nodes.mapM fun
        | .char c => some c
        | .elem _ _ _ => none
    | _ => none
  else none

/-! ## rules of content -/

/-- The content `cs` holds `nodes`, up to `rest`. -/
def Reads (cs : List Char) (nodes : List Node) (rest : List Char) : Prop :=
  ∀ n, cs.length < n → content n cs = some (nodes, rest)

/-- In front of any content, `text` holds `nodes`. -/
def Solid (text : List Char) (nodes : List Node) : Prop :=
  ∀ cs more rest, Reads cs more rest → Reads (text ++ cs) (nodes ++ more) rest

/-- In front of markup or at the end, `text` holds `nodes`. -/
def Yields (text : List Char) (nodes : List Node) : Prop :=
  ∀ cs more rest, (∀ c ∈ cs.head?, c = '<') → Reads cs more rest →
    Reads (text ++ cs) (nodes ++ more) rest

theorem reads_nil : Reads [] [] [] := by
  intro n hn
  obtain ⟨n, rfl⟩ := Nat.exists_eq_succ_of_ne_zero (Nat.ne_of_gt hn)
  rfl

theorem reads_endTag (cs : List Char) : Reads ('<' :: '/' :: cs) [] ('<' :: '/' :: cs) := by
  intro n hn
  obtain ⟨n, rfl⟩ := Nat.exists_eq_succ_of_ne_zero (Nat.ne_of_gt (Nat.zero_lt_of_lt hn))
  rfl

theorem reads_char {c : Char} {cs rest : List Char} {nodes : List Node} (hlt : c ≠ '<')
    (hamp : c ≠ '&') (hend : ¬(c = ']' ∧ [']', '>'] <+: cs)) (h : Reads cs nodes rest) :
    Reads (c :: cs) (.char c :: nodes) rest := by
  intro n hn
  obtain ⟨n, rfl⟩ := Nat.exists_eq_succ_of_ne_zero (Nat.ne_of_gt (Nat.zero_lt_of_lt hn))
  rw [List.length_cons] at hn
  rw [content.eq_def]
  simp only [if_neg hlt, if_neg hamp, if_neg hend, h n (by omega), Option.bind_eq_bind,
    Option.bind_some]

/-- A reference ends at the first semicolon. -/
theorem reference_append {body : List Char} (hbody : ';' ∉ body) (cs : List Char) :
    reference (body ++ ';' :: cs) = (refChar body).map fun c => (c, cs) := by
  have hne : ∀ c ∈ body, decide (c ≠ ';') = true := fun c hc =>
    decide_eq_true fun he => hbody (he ▸ hc)
  have hstop : (';' :: cs).takeWhile (fun c => decide (c ≠ ';')) = [] := rfl
  have hrest : (';' :: cs).dropWhile (fun c => decide (c ≠ ';')) = ';' :: cs := rfl
  rw [reference, List.dropWhile_append_of_pos hne, List.takeWhile_append_of_pos hne, hstop, hrest,
    List.append_nil]

theorem reads_ref {body cs rest : List Char} {d : Char} {nodes : List Node} (hbody : ';' ∉ body)
    (hd : refChar body = some d) (h : Reads cs nodes rest) :
    Reads ('&' :: body ++ ';' :: cs) (.char d :: nodes) rest := by
  intro n hn
  obtain ⟨n, rfl⟩ := Nat.exists_eq_succ_of_ne_zero (Nat.ne_of_gt (Nat.zero_lt_of_lt hn))
  rw [List.cons_append, List.length_cons, List.length_append, List.length_cons] at hn
  have hne : ('&' : Char) ≠ '<' := by decide
  rw [List.cons_append, content.eq_def]
  simp only [if_neg hne, if_true, reference_append hbody, hd, h n (by omega), Option.map_some,
    Option.bind_eq_bind, Option.bind_some]

namespace Solid

theorem nil : Solid [] [] := fun _ _ _ h => h

theorem append {a b : List Char} {ns ms : List Node} (ha : Solid a ns) (hb : Solid b ms) :
    Solid (a ++ b) (ns ++ ms) := by
  intro cs more rest h
  rw [List.append_assoc, List.append_assoc]
  exact ha _ _ _ (hb _ _ _ h)

theorem char {c : Char} (hlt : c ≠ '<') (hamp : c ≠ '&') (hend : c ≠ ']') :
    Solid [c] [.char c] := fun _ _ _ h => reads_char hlt hamp (fun hc => hend hc.1) h

theorem ref {body : List Char} {d : Char} (hbody : ';' ∉ body) (hd : refChar body = some d) :
    Solid ('&' :: body ++ [';']) [.char d] := by
  intro cs more rest h
  rw [List.append_assoc]
  exact reads_ref hbody hd h

theorem yields {a : List Char} {ns : List Node} (h : Solid a ns) : Yields a ns :=
  fun cs more rest _ hr => h cs more rest hr

theorem append_yields {a b : List Char} {ns ms : List Node} (ha : Solid a ns) (hb : Yields b ms) :
    Yields (a ++ b) (ns ++ ms) := by
  intro cs more rest hcs h
  rw [List.append_assoc, List.append_assoc]
  exact ha _ _ _ (hb _ _ _ hcs h)

/-- Text without markup and without `]`. -/
theorem text {a : List Char} (h : ∀ c ∈ a, c ≠ '<' ∧ c ≠ '&' ∧ c ≠ ']') :
    Solid a (a.map .char) := by
  induction a with
  | nil => exact nil
  | cons c a ih =>
      obtain ⟨hlt, hamp, hend⟩ := h c List.mem_cons_self
      exact (char hlt hamp hend).append (ih fun d hd => h d (List.mem_cons_of_mem c hd))

end Solid

/-- What may stand in character data as it is. -/
structure IsData (cs : List Char) : Prop where
  lt : '<' ∉ cs
  amp : '&' ∉ cs
  cdataEnd : ¬[']', ']', '>'] <:+: cs

/-- A `]` does not begin a `]]>` if no `>` follows in the text. -/
theorem Yields.bracket {text : List Char} {nodes : List Node} (hgt : '>' ∉ text)
    (h : Yields text nodes) : Yields (']' :: text) (.char ']' :: nodes) := by
  intro cs more rest hcs hr
  refine reads_char (by decide) (by decide) (fun hc => ?_) (h cs more rest hcs hr)
  obtain ⟨t, ht⟩ := hc.2
  match text, cs with
  | [], [] => simp at ht
  | [], c :: cs =>
      have hlt : c = '<' := hcs c rfl
      simp [hlt] at ht
  | [c], [] => simp at ht
  | [c], d :: cs =>
      have hlt : d = '<' := hcs d rfl
      simp [hlt] at ht
  | c :: d :: text, cs =>
      cases ht
      exact hgt (by simp)

theorem Yields.data {text : List Char} (h : IsData text) : Yields text (text.map .char) := by
  induction text with
  | nil => exact Solid.nil.yields
  | cons c text ih =>
      have hlt := h.lt
      have hamp := h.amp
      have htail : IsData text :=
        ⟨fun hm => hlt (List.mem_cons_of_mem c hm), fun hm => hamp (List.mem_cons_of_mem c hm),
          fun hi => h.cdataEnd (hi.trans (List.infix_cons (List.infix_refl text)))⟩
      intro cs more rest hcs hr
      refine reads_char (fun he => hlt (he ▸ List.mem_cons_self))
        (fun he => hamp (he ▸ List.mem_cons_self)) (fun hc => ?_) (ih htail cs more rest hcs hr)
      obtain ⟨rfl, t, ht⟩ := hc
      -- the `]>` would have to lie in the text
      match text, cs with
      | [], [] => simp at ht
      | [], d :: cs =>
          have hd : d = '<' := hcs d rfl
          simp [hd] at ht
      | [d], [] => simp at ht
      | [d], e :: cs =>
          have he : e = '<' := hcs e rfl
          simp [he] at ht
      | d :: e :: text, cs =>
          cases ht
          exact h.cdataEnd ⟨[], text, rfl⟩

/-! ## rules of elements -/

/-- A name. -/
def IsName (cs : List Char) : Prop := ∃ c ds, cs = c :: ds ∧ isNameStart c ∧ ∀ d ∈ ds, isNameChar d

theorem name_append {nm cs : List Char} (hnm : IsName nm) (hcs : ∀ c ∈ cs.head?, ¬isNameChar c) :
    name (nm ++ cs) = some (nm, cs) := by
  obtain ⟨c, ds, rfl, hc, hds⟩ := hnm
  have htake : cs.takeWhile isNameChar = [] := by
    cases cs with
    | nil => rfl
    | cons d cs => exact List.takeWhile_cons_of_neg (hcs d rfl)
  have hdrop : cs.dropWhile isNameChar = cs := by
    cases cs with
    | nil => rfl
    | cons d cs => exact List.dropWhile_cons_of_neg (hcs d rfl)
  rw [List.cons_append, name, if_pos hc, List.takeWhile_append_of_pos hds,
    List.dropWhile_append_of_pos hds, htake, hdrop, List.append_nil]

/-- A start tag without attributes. -/
theorem tag_append {nm : List Char} (hnm : IsName nm) (cs : List Char) :
    tag (nm ++ '>' :: cs) = some (nm, [], false, cs) := by
  rw [tag, name_append hnm (by simp; decide)]
  rfl

theorem endTag_append {nm : List Char} (hnm : IsName nm) (cs : List Char) :
    endTag nm (nm ++ '>' :: cs) = some cs := by
  rw [endTag, name_append hnm (by simp; decide)]
  show (if nm = nm then some cs else none) = some cs
  rw [if_pos rfl]

/-- A tag begins with a name. -/
theorem tag_eq_some {cs : List Char} {p} (h : tag cs = some p) :
    ∃ c ds, cs = c :: ds ∧ isNameStart c := by
  cases cs with
  | nil => cases h
  | cons c ds =>
      by_cases hc : isNameStart c
      · exact ⟨c, ds, rfl, hc⟩
      · rw [tag, name, if_neg hc] at h
        cases h

/-- An element with a start tag, in front of any content. -/
theorem reads_elem {start inner cs rest nm : List Char} {atts} {children nodes : List Node}
    (hnm : IsName nm) (htag : ∀ cs, tag (start ++ cs) = some (nm, atts, false, cs))
    (hinner : Yields inner children) (h : Reads cs nodes rest) :
    Reads ('<' :: (start ++ (inner ++ ('<' :: '/' :: (nm ++ '>' :: cs)))))
      (.elem nm atts children :: nodes) rest := by
  intro n hn
  obtain ⟨n, rfl⟩ := Nat.exists_eq_succ_of_ne_zero (Nat.ne_of_gt (Nat.zero_lt_of_lt hn))
  have hstart := htag (inner ++ ('<' :: '/' :: (nm ++ '>' :: cs)))
  have hkids := hinner _ _ _ (by simp) (reads_endTag (nm ++ '>' :: cs))
  rw [List.append_nil] at hkids
  simp only [List.length_cons, List.length_append] at hn
  have hkids := hkids n (by simp only [List.length_cons, List.length_append]; omega)
  have hrest := h n (by omega)
  obtain ⟨c, ds, hcs, hc⟩ := tag_eq_some hstart
  rw [hcs] at hstart ⊢
  rw [content.eq_def]
  simp only [if_true]
  -- other markup does not begin with a name
  split
  iterate 4
    · next he =>
        cases he
        exact absurd hc (by decide)
  · simp only [Option.bind_eq_bind, hstart, Option.bind_some, Bool.false_eq_true, if_false, hkids,
      endTag_append hnm, hrest]

/-- An element with a start tag. -/
theorem Solid.elem {start inner nm : List Char} {atts} {children : List Node} (hnm : IsName nm)
    (htag : ∀ cs, tag (start ++ cs) = some (nm, atts, false, cs)) (hinner : Yields inner children) :
    Solid ('<' :: start ++ inner ++ ['<', '/'] ++ nm ++ ['>']) [.elem nm atts children] := by
  intro cs more rest h
  have hread := reads_elem hnm htag hinner h
  simpa using hread

/-- An element without attributes. -/
theorem Solid.plain {inner nm : List Char} {children : List Node} (hnm : IsName nm)
    (hinner : Yields inner children) :
    Solid ('<' :: nm ++ ['>'] ++ inner ++ ['<', '/'] ++ nm ++ ['>']) [.elem nm [] children] := by
  have htag : ∀ cs, tag ((nm ++ ['>']) ++ cs) = some (nm, [], false, cs) := fun cs => by
    rw [List.append_assoc]
    exact tag_append hnm cs
  have hsolid := Solid.elem hnm htag hinner
  rw [← List.cons_append] at hsolid
  exact hsolid

/-- The content of an element that is read to its end. -/
theorem Yields.reads {text : List Char} {nodes : List Node} (h : Yields text nodes) :
    Reads text nodes [] := by
  have hread := h [] [] [] (by simp) reads_nil
  rwa [List.append_nil, List.append_nil] at hread

/-- Text that is read as the content of an element. -/
theorem readText_eq {bytes : List UInt8} {cs ds : List Char} (hdec : decodeUtf8 bytes = some cs)
    (hcr : '\r' ∉ cs) (hchar : ∀ c ∈ cs, isChar c) (h : Yields cs (ds.map .char)) :
    readText bytes = some ds := by
  have hmap : ∀ ds : List Char, (ds.map Node.char).mapM (fun
      | .char c => some c
      | .elem _ _ _ => none) = some ds := by
    intro ds
    induction ds with
    | nil => rfl
    | cons d ds ih =>
        rw [List.map_cons, List.mapM_cons, ih]
        rfl
  rw [readText, hdec]
  simp only [Option.bind_eq_bind, Option.bind_some, normalizeEol_of_notMem hcr,
    if_pos (List.all_eq_true.mpr hchar), h.reads _ (Nat.lt_succ_self _)]
  exact hmap ds

/-! ## rules of documents -/

theorem normalizeEol_append {cs ds : List Char} (h : ∀ c ∈ ds.head?, c ≠ '\n') :
    normalizeEol (cs ++ ds) = normalizeEol cs ++ normalizeEol ds := by
  fun_induction normalizeEol cs with
  | case1 => rfl
  | case2 cs ih => simp [normalizeEol, ih]
  | case3 cs hne ih =>
      have hstop : ∀ tail, cs ++ ds = '\n' :: tail → False := by
        intro tail he
        cases cs with
        | nil => simp_all
        | cons c cs => simp_all
      simp [normalizeEol, ih]
  | case4 c cs _ hne ih =>
      rw [List.cons_append, normalizeEol_cons_of_ne hne, ih, List.cons_append]

theorem xmlDecl_version (cs : List Char) :
    xmlDecl ("<?xml version=\"1.0\"?>".toList ++ cs) = some cs := rfl

theorem misc_blank (n : Nat) {c : Char} (hc : isSpace c) (cs : List Char) :
    misc (n + 1) (c :: cs) = misc n cs := by
  rw [misc, if_pos hc]

theorem piEnd_append {body : List Char} (h : '?' ∉ body) (cs : List Char) :
    piEnd (body ++ '?' :: '>' :: cs) = some cs := by
  induction body with
  | nil => rfl
  | cons c body ih =>
      have hc : c ≠ '?' := fun he => h (he ▸ List.mem_cons_self)
      rw [List.cons_append, piEnd.eq_3 _ _ (fun _ he _ => hc he)]
      exact ih fun hm => h (List.mem_cons_of_mem c hm)

/-- A processing instruction between the markup of a document. -/
theorem misc_procInst (n : Nat) {target body : List Char} (htarget : IsName target)
    (hxml : target.map Char.toLower ≠ ['x', 'm', 'l']) (hbody : '?' ∉ body) (cs : List Char) :
    misc (n + 1) ('<' :: '?' :: (target ++ ' ' :: (body ++ '?' :: '>' :: cs))) = misc n cs := by
  have hpi : procInst (target ++ ' ' :: (body ++ '?' :: '>' :: cs)) = some cs := by
    rw [procInst, name_append htarget (by simp; decide)]
    simp only [Option.bind_eq_bind, Option.bind_some, if_neg hxml]
    exact piEnd_append hbody cs
  rw [misc, if_neg (by decide)]
  simp only [hpi, Option.bind_some]

/-- The markup before the root element ends at its start tag. -/
theorem misc_start (n : Nat) {c : Char} (hc : isNameStart c) (cs : List Char) :
    misc (n + 1) ('<' :: c :: cs) = some ('<' :: c :: cs) := by
  have hbang : c ≠ '!' := fun he => absurd (he ▸ hc) (by decide)
  have hquery : c ≠ '?' := fun he => absurd (he ▸ hc) (by decide)
  rw [misc, if_neg (by decide)]
  split <;> simp_all

theorem element_append {start inner nm : List Char} {atts} {children : List Node} (hnm : IsName nm)
    (htag : ∀ cs, tag (start ++ cs) = some (nm, atts, false, cs)) (hinner : Yields inner children)
    (cs : List Char) :
    element (start ++ (inner ++ ('<' :: '/' :: (nm ++ '>' :: cs)))) =
      some (.elem nm atts children, cs) := by
  have hkids := hinner _ _ _ (by simp) (reads_endTag (nm ++ '>' :: cs)) _ (Nat.lt_succ_self _)
  rw [List.append_nil] at hkids
  rw [element, htag]
  simp only [Option.bind_eq_bind, Option.bind_some, Bool.false_eq_true, if_false, hkids,
    endTag_append hnm]

/-- A document whose line ends are line feeds. -/
theorem readBytes_eq {bytes : List UInt8} {cs ds es fs : List Char} {root : Node}
    (hdec : decodeUtf8 bytes = some cs) (hcr : '\r' ∉ cs) (hchar : ∀ c ∈ cs, isChar c)
    (hdecl : xmlDecl cs = some ds) (hmisc : misc (ds.length + 1) ds = some ('<' :: es))
    (hroot : element es = some (root, fs)) (hend : misc (fs.length + 1) fs = some []) :
    readBytes bytes = some root := by
  rw [readBytes, hdec, Option.bind_some, document]
  simp only [normalizeEol_of_notMem hcr, if_pos (List.all_eq_true.mpr hchar), hdecl, hmisc, hroot,
    hend, Option.bind_eq_bind, Option.bind_some]

end LibCheck.Xml
