import Tether.Plist.Read
import Tether.Plist.Xml.Writer
import Tether.Proofs.Entries
import Tether.Proofs.Text

/-!
# Documents that were written

A dictionary of texts, whole numbers and binary data is read from the document that was written for
it, entry by entry and in the same order. What is read from a document is described from its end:
`Gives p bs es` says that the bytes `bs`, in a place `p`, have nothing wrong with them and give the
events `es`. A piece of a document puts its events in front of those of the rest.

* `Gives.scalar`, `Gives.leaf`, `Gives.dictionary`: the pieces;
* `read?_document`, `ofBytes?_document`: the entries of a document;
* `dictionaryOfBytes?_document`: the dictionary, where the keys are different;
* `dictionaryOfBytes?_of_lt`: a byte that no document begins with.
-/

namespace Tether.Plist.Xml

open Bytes (ofString)

/-! ### Text -/

/-- Text without references is read as it stands. -/
theorem resolve?_of_notMem {cs : List Char} (h : '&' ∉ cs) (done : List (Option Char)) :
    resolve? done none cs = some (done.reverse ++ cs.map some) := by
  induction cs generalizing done with
  | nil => simp [resolve?]
  | cons c cs ih =>
    rw [List.mem_cons, not_or] at h
    rw [resolve?]
    simp only [Ne.symm h.1, if_false]
    rw [ih h.2, List.reverse_cons, List.append_assoc]
    rfl

/-- A character is read from what it is written as. -/
theorem resolve?_escape (c : Char) (done : List (Option Char)) (rest : List Char) :
    resolve? done none ((escape c).toList ++ rest) = resolve? (some c :: done) none rest := by
  by_cases hamp : c = '&'
  · subst hamp
    rfl
  by_cases hlt : c = '<'
  · subst hlt
    rfl
  by_cases hgt : c = '>'
  · subst hgt
    rfl
  by_cases hquot : c = '"'
  · subst hquot
    rfl
  by_cases hapos : c = '\''
  · subst hapos
    rfl
  rw [escape, if_neg hamp, if_neg hlt, if_neg hgt, if_neg hquot, if_neg hapos,
    String.toList_singleton, List.singleton_append, resolve?]
  simp only [hamp, if_false]

theorem toList_escaped (s : String) :
    (escaped s).toList = s.toList.flatMap fun c => (escape c).toList := by
  rw [escaped, String.toList_join, List.flatMap_map]

/-- Text is read from what it is written as. -/
theorem resolve?_escaped (s : String) (done : List (Option Char)) :
    resolve? done none (escaped s).toList = some (done.reverse ++ s.toList.map some) := by
  rw [toList_escaped]
  induction s.toList generalizing done with
  | nil => simp [resolve?]
  | cons c cs ih =>
    rw [List.flatMap_cons, resolve?_escape, ih, List.reverse_cons, List.append_assoc]
    rfl

theorem content?_ofString (s : String) : content? (ofString s) = resolve? [] none s.toList := by
  rw [content?, Bytes.toString?_ofString, Option.bind_some]

/-- No tag begins in written text. -/
theorem notMem_escaped (s : String) : '<' ∉ (escaped s).toList := by
  rw [toList_escaped, List.mem_flatMap]
  rintro ⟨c, -, hc⟩
  rw [escape] at hc
  split_ifs at hc with hamp hlt hgt hquot hapos
  · exact absurd hc (by decide)
  · exact absurd hc (by decide)
  · exact absurd hc (by decide)
  · exact absurd hc (by decide)
  · exact absurd hc (by decide)
  · rw [String.toList_singleton, List.mem_singleton] at hc
    exact hlt hc.symm

theorem notMem_ofString {s : String} (h : '<' ∉ s.toList) : 0x3C ∉ ofString s := by
  rw [Bytes.ofString_eq_flatMap, List.mem_flatMap]
  rintro ⟨c, hc, hmem⟩
  have hnumber := Bytes.toNat_of_mem_utf8EncodeChar (by decide) hmem
  have hangle : (0x3C : UInt8).toNat = '<'.toNat := by decide
  exact h (Char.toNat_inj.1 (hnumber.trans hangle) ▸ hc)

/-! ### Tokens -/

/-- In this place a document that goes on with these bytes has these events still to come, and
nothing is wrong with it. -/
def Gives (p : Position) (bs : Bytes) (es : List Event) : Prop :=
  ∀ fuel, bs.length ≤ fuel → ∃ ts, Token.scanFrom fuel bs = (ts, true) ∧ events p ts = (es, true)

theorem length_lt_append {front rest : Bytes} (h : front ≠ []) :
    rest.length < (front ++ rest).length := by
  rw [List.length_append]
  exact Nat.lt_add_of_pos_left (List.length_pos_iff.2 h)

/-- A document ends where no text is wanted. -/
theorem Gives.nil (enclosing : List Bytes) : Gives { enclosing } [] [] := by
  intro fuel _
  refine ⟨[], ?_, rfl⟩
  cases fuel <;> rfl

/-- The next token gives the first events. -/
theorem Gives.token (es : List Event) {p q : Position} {front rest : Bytes} {t : Token}
    {more : List Event} (h : Token.next? (front ++ rest) = some ([t], rest)) (hne : front ≠ [])
    (hstep : p.step? t = some (es, q)) (hrest : Gives q rest more) :
    Gives p (front ++ rest) (es ++ more) := by
  intro fuel hfuel
  have hlt : rest.length < (front ++ rest).length := length_lt_append hne
  obtain ⟨fuel, rfl⟩ := Nat.exists_eq_add_one.2 (Nat.lt_of_lt_of_le (Nat.zero_lt_of_lt hlt) hfuel)
  obtain ⟨ts, hscan, hevents⟩ := hrest fuel (by omega)
  refine ⟨t :: ts, ?_, ?_⟩
  · rw [Token.scanFrom, h]
    · dsimp only
      rw [hscan]
      rfl
    · exact List.append_ne_nil_of_left_ne_nil hne rest
  · rw [events, hstep]
    dsimp only
    rw [hevents]

/-- Text goes up to the next tag. -/
theorem Gives.text {p q : Position} {raw rest : Bytes} {more : List Event} (hne : raw ≠ [])
    (hraw : 0x3C ∉ raw) (hstep : p.step? (.text raw) = some ([], q))
    (hrest : Gives q (0x3C :: rest) more) : Gives p (raw ++ 0x3C :: rest) more := by
  refine .token [] ?_ hne hstep hrest
  have hall : ∀ b ∈ raw, decide (b ≠ 0x3C) = true := by
    intro b hb
    exact decide_eq_true (ne_of_mem_of_not_mem hb hraw)
  obtain ⟨b, raw, rfl⟩ := List.exists_cons_of_ne_nil hne
  have hb : b ≠ 0x3C := ne_of_mem_of_not_mem List.mem_cons_self hraw
  rw [List.cons_append, Token.next?, ← List.cons_append, List.takeWhile_append_of_pos hall,
    List.dropWhile_append_of_pos hall]
  · simp
  · rintro rest' ⟨⟩
    exact hb rfl

/-- What carries no content gives nothing. -/
theorem Gives.aside {enclosing : List Bytes} {front rest : Bytes} {es : List Event}
    (h : Token.next? (front ++ rest) = some ([.aside], rest)) (hne : front ≠ [])
    (hrest : Gives { enclosing } rest es) : Gives { enclosing } (front ++ rest) es :=
  .token [] h hne rfl hrest

/-! ### Tags -/

/-- The name can stand in a tag. -/
def IsTag (name : String) : Prop :=
  ∀ rest,
    Token.next? (ofString ("<" ++ name ++ ">") ++ rest) = some ([.opening (ofString name)], rest) ∧
    Token.next? (ofString ("</" ++ name ++ ">") ++ rest) = some ([.closing (ofString name)], rest)

theorem isTag_plist : IsTag "plist" := fun _ => ⟨rfl, rfl⟩
theorem isTag_dict : IsTag "dict" := fun _ => ⟨rfl, rfl⟩
theorem isTag_key : IsTag "key" := fun _ => ⟨rfl, rfl⟩
theorem isTag_string : IsTag "string" := fun _ => ⟨rfl, rfl⟩
theorem isTag_integer : IsTag "integer" := fun _ => ⟨rfl, rfl⟩
theorem isTag_data : IsTag "data" := fun _ => ⟨rfl, rfl⟩

theorem step?_text (enclosing : List Bytes) (raw : Bytes) :
    Position.step? { enclosing } (.text raw) = (content? raw).bind fun text =>
      if text.all (·.any isWhite) then some ([], { enclosing }) else none :=
  rfl

theorem step?_text_reading (enclosing : List Bytes) (read : String → Option Plist)
    (text : List Char) (raw : Bytes) :
    Position.step? { enclosing, reading := some (read, text) } (.text raw) =
      (content? raw).map fun more =>
        ([], { enclosing, reading := some (read, text ++ more.filterMap id) }) :=
  rfl

theorem step?_opening {name : Bytes} {read : String → Option Plist} (enclosing : List Bytes)
    (h : kind? name = some (.ofText read)) :
    Position.step? { enclosing } (.opening name) =
      some ([], { enclosing := name :: enclosing, reading := some (read, []) }) := by
  change (kind? name).map _ = _
  rw [h]
  rfl

theorem step?_closing (name : Bytes) (enclosing : List Bytes) :
    Position.step? { enclosing := name :: enclosing } (.closing name) =
      some (closingEvents name, { enclosing }) :=
  if_pos rfl

theorem step?_closing_reading {v : Plist} (name : Bytes) (enclosing : List Bytes)
    {read : String → Option Plist} {text : List Char} (h : read (String.ofList text) = some v) :
    Position.step? { enclosing := name :: enclosing, reading := some (read, text) }
      (.closing name) = some ([.scalar v], { enclosing }) := by
  change (if name = name then (read (String.ofList text)).map _ else none) = _
  rw [if_pos rfl, h]
  rfl

theorem Gives.opening {name : String} (es : List Event) {p q : Position} {rest : Bytes}
    {more : List Event} (hname : IsTag name)
    (hstep : p.step? (.opening (ofString name)) = some (es, q)) (hrest : Gives q rest more) :
    Gives p (ofString ("<" ++ name ++ ">") ++ rest) (es ++ more) := by
  refine .token es (hname rest).1 ?_ hstep hrest
  rw [Bytes.ofString_append, Bytes.ofString_append, List.append_assoc]
  exact List.cons_ne_nil _ _

theorem Gives.closing {name : String} (es : List Event) {p q : Position} {rest : Bytes}
    {more : List Event} (hname : IsTag name)
    (hstep : p.step? (.closing (ofString name)) = some (es, q)) (hrest : Gives q rest more) :
    Gives p (ofString ("</" ++ name ++ ">") ++ rest) (es ++ more) := by
  refine .token es (hname rest).2 ?_ hstep hrest
  rw [Bytes.ofString_append, Bytes.ofString_append, List.append_assoc]
  exact List.cons_ne_nil _ _

/-! ### Elements -/

/-- White space between elements gives nothing. -/
theorem Gives.blank {text : String} {enclosing : List Bytes} {rest : Bytes} {es : List Event}
    (hne : text ≠ "") (hwhite : ∀ c ∈ text.toList, isWhite c ∧ c ≠ '<' ∧ c ≠ '&')
    (hrest : rest.head? = some 0x3C) (h : Gives { enclosing } rest es) :
    Gives { enclosing } (ofString text ++ rest) es := by
  obtain ⟨rest, rfl⟩ := List.head?_eq_some_iff.1 hrest
  have hresolve : resolve? [] none text.toList = some (text.toList.map some) :=
    resolve?_of_notMem (fun h => (hwhite _ h).2.2 rfl) []
  refine .text ?_ (notMem_ofString fun h => (hwhite _ h).2.1 rfl) ?_ h
  · rw [ne_eq, ← List.isEmpty_iff, Bytes.isEmpty_ofString]
    simpa using hne
  · rw [step?_text, content?_ofString, hresolve, Option.bind_some, if_pos]
    simp only [List.all_map, List.all_eq_true]
    intro c hc
    exact (hwhite c hc).1

/-- An element gives the value that its text is read as. -/
theorem Gives.scalar {name content : String} {enclosing : List Bytes} {rest : Bytes}
    {es : List Event} {read : String → Option Plist} {cs : List Char} {v : Plist}
    (hname : IsTag name) (hkind : kind? (ofString name) = some (.ofText read))
    (hno : '<' ∉ content.toList) (hcontent : resolve? [] none content.toList = some (cs.map some))
    (hread : read (String.ofList cs) = some v) (hrest : Gives { enclosing } rest es) :
    Gives { enclosing } (ofString (element name content) ++ rest) (.scalar v :: es) := by
  have hclosing : Gives { enclosing := ofString name :: enclosing, reading := some (read, cs) }
      (ofString ("</" ++ name ++ ">") ++ rest) (.scalar v :: es) :=
    .closing [.scalar v] hname (step?_closing_reading _ _ hread) hrest
  have hcut : ofString (element name content) ++ rest = ofString ("<" ++ name ++ ">") ++
      (ofString content ++ (ofString ("</" ++ name ++ ">") ++ rest)) := by
    simp only [element, Bytes.ofString_append, List.append_assoc]
  rw [hcut]
  refine .opening [] hname (step?_opening enclosing hkind) ?_
  -- There is no token for the text of an element that has none.
  by_cases hempty : content = ""
  · subst hempty
    obtain rfl : cs = [] := by simpa [resolve?] using hcontent.symm
    exact hclosing
  · refine .text ?_ (notMem_ofString hno) ?_ hclosing
    · rw [ne_eq, ← List.isEmpty_iff, Bytes.isEmpty_ofString]
      simpa using hempty
    · rw [step?_text_reading, content?_ofString, hcontent]
      simp

/-- An element of text gives the text. -/
theorem Gives.escaped {name : String} {enclosing : List Bytes} {rest : Bytes} {es : List Event}
    (hname : IsTag name) (hkind : kind? (ofString name) = some (.ofText fun s => some (.string s)))
    (text : String) (hrest : Gives { enclosing } rest es) :
    Gives { enclosing } (ofString (element name (escaped text)) ++ rest)
      (.scalar (.string text) :: es) :=
  .scalar hname hkind (notMem_escaped text) (resolve?_escaped text [])
    (by rw [String.ofList_toList]) hrest

/-! ### Whole numbers -/

theorem integer?_of_notMem {s : String} (h : 'x' ∉ s.toList) :
    integer? s = match Text.signed? (2 ^ 63) s with
    | some n => Integer.ofInt? n
    | none => (Text.unsigned? (2 ^ 64) s).bind fun n => Integer.ofInt? n := by
  rw [integer?]
  split
  · next cs heq =>
    rw [heq] at h
    simp at h
  · rfl

/-- A whole number is read from what it is written as. -/
theorem integer?_toString (n : Integer) : integer? (toString n.value) = some n := by
  obtain ⟨v, hlower, hupper⟩ := n
  have hofInt : Integer.ofInt? v = some ⟨v, hlower, hupper⟩ := dif_pos ⟨hlower, hupper⟩
  dsimp only
  have hno : 'x' ∉ (toString v).toList := by
    intro hx
    exact absurd (Text.forall_mem_toString v _ hx) (by decide)
  rw [integer?_of_notMem hno]
  have hlist := Text.toList_toString v
  split_ifs at hlist with hsign
  · -- A number that is too great to be read with a sign is read without one.
    rw [Text.signed?_of_natural hlist]
    split_ifs with hsmall
    · dsimp only
      rw [Int.toNat_of_nonneg hsign, hofInt]
    · dsimp only
      rw [Text.unsigned?_of_natural hlist (by omega), Option.bind_some, Int.toNat_of_nonneg hsign,
        hofInt]
  · rw [Text.signed?_neg hlist (by omega), Int.toNat_of_nonneg (by omega), neg_neg]
    exact hofInt

theorem kind?_integer : kind? (ofString "integer") = some (.ofText fun s =>
    (integer? s).map .integer) :=
  rfl

/-- An element of a whole number gives the number. -/
theorem Gives.integer (n : Integer) {enclosing : List Bytes} {rest : Bytes} {es : List Event}
    (hrest : Gives { enclosing } rest es) :
    Gives { enclosing } (ofString (element "integer" (toString n.value)) ++ rest)
      (.scalar (.integer n) :: es) := by
  have hangle : '<' ∉ (toString n.value).toList := by
    intro h
    exact absurd (Text.forall_mem_toString _ _ h) (by decide)
  have hamp : '&' ∉ (toString n.value).toList := by
    intro h
    exact absurd (Text.forall_mem_toString _ _ h) (by decide)
  refine .scalar isTag_integer kind?_integer hangle (resolve?_of_notMem hamp []) ?_ hrest
  rw [String.ofList_toList, integer?_toString]
  rfl

/-! ### Binary data -/

theorem kind?_data : kind? (ofString "data") = some (.ofText fun s =>
    (Text.Base64.decode? (s.toList.filter fun c => !isDataBlank c)).map .data) :=
  rfl

/-- The text of binary data: its digits in lines, and the indent of the closing tag. -/
def dataText (depth : Nat) (bytes : Bytes) : String :=
  String.join ((dataLines bytes).map fun line => "\n" ++ (tabs depth ++ line)) ++
    ("\n" ++ tabs depth)

theorem toList_dataText (depth : Nat) (bytes : Bytes) :
    (dataText depth bytes).toList =
      (pieces 68 (Text.Base64.encode bytes)).flatMap
        (fun line => '\n' :: (List.replicate depth '\t' ++ line)) ++
      '\n' :: List.replicate depth '\t' := by
  simp [dataText, dataLines, tabs, String.toList_join, List.flatMap_map]

/-- What is true of line feeds, of tabs and of the characters of base 64 is true of the text. -/
theorem forall_mem_dataText {P : Char → Prop} (hline : P '\n') (htab : P '\t')
    (hdigit : ∀ n : Fin 64, P (Text.Base64.digit n)) (hpadding : P '=') (depth : Nat)
    (bytes : Bytes) : ∀ c ∈ (dataText depth bytes).toList, P c := by
  have htabs : ∀ c ∈ List.replicate depth '\t', P c := by
    intro c hc
    rw [List.eq_of_mem_replicate hc]
    exact htab
  have hlines : ∀ line ∈ pieces 68 (Text.Base64.encode bytes), ∀ c ∈ line, P c := by
    intro line hmem c hc
    refine Text.Base64.forall_mem_encode hdigit hpadding bytes c ?_
    rw [← flatten_pieces 68 (Text.Base64.encode bytes)]
    exact List.mem_flatten_of_mem hmem hc
  rw [toList_dataText]
  simp only [List.forall_mem_append, List.forall_mem_cons, List.forall_mem_flatMap]
  exact ⟨fun line hmem => ⟨hline, htabs, hlines line hmem⟩, hline, htabs⟩

/-- Without its white space the text is what was cut into lines. -/
theorem filter_dataText (depth : Nat) (bytes : Bytes) :
    (dataText depth bytes).toList.filter (fun c => !isDataBlank c) = Text.Base64.encode bytes := by
  have htabs : (List.replicate depth '\t').filter (fun c => !isDataBlank c) = [] := by
    rw [List.filter_replicate]
    rfl
  have hdigits : (Text.Base64.encode bytes).filter (fun c => !isDataBlank c) =
      Text.Base64.encode bytes :=
    List.filter_eq_self.2 (Text.Base64.forall_mem_encode (by decide) (by decide) bytes)
  have hbreak (cs : List Char) :
      ('\n' :: cs).filter (fun c => !isDataBlank c) = cs.filter (fun c => !isDataBlank c) :=
    List.filter_cons_of_neg (by decide)
  rw [toList_dataText, List.filter_append, hbreak, htabs, List.append_nil, List.filter_flatMap]
  simp only [hbreak, List.filter_append, htabs, List.nil_append]
  rw [← List.filter_flatMap, List.flatMap_id', flatten_pieces, hdigits]

/-- An element of binary data gives the data. -/
theorem Gives.data (depth : Nat) (bytes : Bytes) {enclosing : List Bytes} {rest : Bytes}
    {es : List Event} (hrest : Gives { enclosing } rest es) :
    Gives { enclosing } (ofString (element "data" (dataText depth bytes)) ++ rest)
      (.scalar (.data bytes) :: es) := by
  have hangle : ∀ c ∈ (dataText depth bytes).toList, c ≠ '<' :=
    forall_mem_dataText (by decide) (by decide) (by decide) (by decide) depth bytes
  have hamp : ∀ c ∈ (dataText depth bytes).toList, c ≠ '&' :=
    forall_mem_dataText (by decide) (by decide) (by decide) (by decide) depth bytes
  refine .scalar isTag_data kind?_data (fun h => hangle _ h rfl)
    (resolve?_of_notMem (fun h => hamp _ h rfl) []) ?_ hrest
  rw [String.toList_ofList, filter_dataText, Text.Base64.decode?_encode]
  rfl

/-! ### Lines -/

/-- Lines, each behind a line feed. -/
def underneath (ls : List String) : Bytes :=
  ls.flatMap fun line => ofString ("\n" ++ line)

theorem ofString_intercalate (l : String) (ls : List String) :
    ofString ("\n" ++ "\n".intercalate (l :: ls)) = underneath (l :: ls) := by
  induction ls generalizing l with
  | nil => simp [underneath]
  | cons l' ls ih =>
    rw [String.intercalate_cons_cons, ← String.append_assoc, ← String.append_assoc,
      String.append_assoc, Bytes.ofString_append, ih]
    rfl

theorem underneath_data (depth : Nat) (bytes : Bytes) :
    underneath (lines depth (.data bytes)) =
      ofString ("\n" ++ tabs depth) ++ ofString (element "data" (dataText depth bytes)) := by
  rw [lines, element, dataText, underneath]
  simp only [List.map_append, List.map_cons, List.map_nil, List.flatMap_append, List.flatMap_cons,
    List.flatMap_nil, List.append_nil, Bytes.ofString_append, Bytes.ofString_join, List.flatMap_map,
    List.append_assoc]
  rfl

theorem head?_element (name content : String) (rest : Bytes) :
    (ofString (element name content) ++ rest).head? = some 0x3C := by
  simp only [element, Bytes.ofString_append, List.append_assoc]
  rfl

theorem isWhite_indent (depth : Nat) :
    ∀ c ∈ ("\n" ++ tabs depth).toList, isWhite c ∧ c ≠ '<' ∧ c ≠ '&' := by
  intro c hc
  rw [String.toList_append, List.mem_append] at hc
  obtain hc | hc := hc
  · obtain rfl := List.mem_singleton.1 hc
    decide
  · rw [tabs, String.toList_ofList] at hc
    rw [List.eq_of_mem_replicate hc]
    decide

theorem Gives.indent {depth : Nat} {enclosing : List Bytes} {rest : Bytes} {es : List Event}
    (hrest : rest.head? = some 0x3C) (h : Gives { enclosing } rest es) :
    Gives { enclosing } (ofString ("\n" ++ tabs depth) ++ rest) es :=
  .blank (by simp) (isWhite_indent depth) hrest h

theorem Gives.margin {enclosing : List Bytes} {rest : Bytes} {es : List Event}
    (hrest : rest.head? = some 0x3C) (h : Gives { enclosing } rest es) :
    Gives { enclosing } (ofString "\n" ++ rest) es :=
  .blank (by decide) (isWhite_indent 0) hrest h

/-! ### Dictionaries -/

/-- A value that is text, a whole number or binary data. -/
inductive IsLeaf : Plist → Prop
  | string (text : String) : IsLeaf (.string text)
  | integer (n : Integer) : IsLeaf (.integer n)
  | data (bytes : Bytes) : IsLeaf (.data bytes)

/-- Such a value is read from its lines. -/
theorem Gives.leaf {v : Plist} (hv : IsLeaf v) {depth : Nat} {enclosing : List Bytes} {rest : Bytes}
    {es : List Event} (hrest : Gives { enclosing } rest es) :
    Gives { enclosing } (underneath (lines depth v) ++ rest) (.scalar v :: es) := by
  rcases hv with ⟨text⟩ | ⟨n⟩ | ⟨bytes⟩
  · have hlines : underneath (lines depth (.string text)) ++ rest =
        ofString ("\n" ++ tabs depth) ++
          (ofString (element "string" (Xml.escaped text)) ++ rest) := by
      simp [lines, underneath, Bytes.ofString_append]
    rw [hlines]
    exact .indent (head?_element _ _ _) (.escaped isTag_string rfl text hrest)
  · have hlines : underneath (lines depth (.integer n)) ++ rest =
        ofString ("\n" ++ tabs depth) ++
          (ofString (element "integer" (toString n.value)) ++ rest) := by
      simp [lines, underneath, Bytes.ofString_append]
    rw [hlines]
    exact .indent (head?_element _ _ _) (.integer n hrest)
  · -- Data takes up several lines, which are one text.
    rw [underneath_data, List.append_assoc]
    exact .indent (head?_element _ _ _) (.data depth bytes hrest)

/-- The events of entries. -/
def entryEvents (entries : Dictionary) : List Event :=
  entries.flatMap fun e => [.scalar (.string e.1), .scalar e.2]

theorem Gives.entries {entries : Dictionary} (h : ∀ e ∈ entries, IsLeaf e.2) {depth : Nat}
    {enclosing : List Bytes} {rest : Bytes} {es : List Event}
    (hrest : Gives { enclosing } rest es) :
    Gives { enclosing } (underneath (entryLines depth entries) ++ rest)
      (entryEvents entries ++ es) := by
  induction entries with
  | nil => exact hrest
  | cons e entries ih =>
    obtain ⟨key, v⟩ := e
    have hlines : underneath (entryLines depth ((key, v) :: entries)) ++ rest =
        ofString ("\n" ++ tabs depth) ++ (ofString (element "key" (Xml.escaped key)) ++
          (underneath (lines depth v) ++ (underneath (entryLines depth entries) ++ rest))) := by
      simp [entryLines, underneath, Bytes.ofString_append]
    rw [hlines]
    refine .indent (head?_element _ _ _) (.escaped isTag_key rfl key ?_)
    exact .leaf (h _ List.mem_cons_self) (ih fun e he => h e (List.mem_cons_of_mem _ he))

theorem lines_dictionary_ne_nil {entries : Dictionary} (hne : entries ≠ []) :
    lines 0 (.dictionary entries) ≠ [] := by
  obtain ⟨⟨key, v⟩, entries, rfl⟩ := List.exists_cons_of_ne_nil hne
  exact List.cons_ne_nil _ _

theorem Gives.dictionary {entries : Dictionary} (hne : entries ≠ []) (h : ∀ e ∈ entries, IsLeaf e.2)
    {enclosing : List Bytes} {rest : Bytes} {es : List Event}
    (hrest : Gives { enclosing } rest es) :
    Gives { enclosing } (underneath (lines 0 (.dictionary entries)) ++ rest)
      (.openDictionary :: (entryEvents entries ++ .close :: es)) := by
  -- An empty dictionary would be a single tag.
  have hlines : underneath (lines 0 (.dictionary entries)) ++ rest =
      ofString "\n" ++ (ofString ("<" ++ "dict" ++ ">") ++ (underneath (entryLines 1 entries) ++
        (ofString "\n" ++ (ofString ("</" ++ "dict" ++ ">") ++ rest)))) := by
    obtain ⟨⟨key, v⟩, entries, rfl⟩ := List.exists_cons_of_ne_nil hne
    simp [lines, entryLines, underneath, Bytes.ofString_append, tabs]
  have hclose : Gives { enclosing := ofString "dict" :: enclosing }
      (ofString "\n" ++ (ofString ("</" ++ "dict" ++ ">") ++ rest)) (.close :: es) :=
    .margin rfl (.closing [.close] isTag_dict (step?_closing (ofString "dict") enclosing) hrest)
  rw [hlines]
  exact .margin rfl (.opening [.openDictionary] isTag_dict rfl (.entries h hclose))

/-! ### Documents -/

/-- The declaration at the start of a document. -/
def declaration : String :=
  "<?xml version=\"1.0\" encoding=\"UTF-8\"?>"

/-- The document type. -/
def doctype : String :=
  "<!DOCTYPE plist PUBLIC \"-//Apple//DTD PLIST 1.0//EN\" " ++
    "\"http://www.apple.com/DTDs/PropertyList-1.0.dtd\">"

set_option maxRecDepth 2000 in
theorem next?_doctype (rest : Bytes) :
    Token.next? (ofString doctype ++ rest) = some ([.aside], rest) :=
  rfl

theorem next?_plist (rest : Bytes) :
    Token.next? (ofString "<plist version=\"1.0\">" ++ rest) =
      some ([.opening (ofString "plist")], rest) :=
  rfl

/-- A document consists of what stands before the value, and the lines of the value. -/
theorem ofString_document {v : Plist} (h : lines 0 v ≠ []) :
    ofString (document v) =
      ofString declaration ++ (ofString "\n" ++ (ofString doctype ++ (ofString "\n" ++
        (ofString "<plist version=\"1.0\">" ++ (underneath (lines 0 v) ++
          (ofString "\n" ++ (ofString ("</" ++ "plist" ++ ">") ++ []))))))) := by
  obtain ⟨l, ls, hlines⟩ := List.exists_cons_of_ne_nil h
  have hheader : header =
      declaration ++ "\n" ++ doctype ++ "\n" ++ "<plist version=\"1.0\">" ++ "\n" := by
    decide +kernel
  have hend : "\n</plist>" = "\n" ++ ("</" ++ "plist" ++ ">") := rfl
  rw [document, hheader, hlines, ← ofString_intercalate, hend]
  simp only [Bytes.ofString_append, List.append_assoc, List.append_nil]

/-- The events of a document are those of its value. -/
theorem Gives.document {entries : Dictionary} (hne : entries ≠ []) (h : ∀ e ∈ entries, IsLeaf e.2) :
    Gives {} (ofString (document (.dictionary entries)))
      (.openDictionary :: (entryEvents entries ++ [.close])) := by
  have hend : Gives { enclosing := [ofString "plist"] }
      (ofString "\n" ++ (ofString ("</" ++ "plist" ++ ">") ++ [])) [] :=
    .margin rfl (.closing [] isTag_plist (step?_closing (ofString "plist") []) (.nil []))
  rw [ofString_document (lines_dictionary_ne_nil hne)]
  refine .aside rfl (by decide) (.margin rfl ?_)
  refine .aside (next?_doctype _) (by decide +kernel) (.margin rfl ?_)
  exact .token [] (next?_plist _) (by decide) rfl (.dictionary hne h hend)

/-! ### Values -/

/-- Entries go into the dictionary that is open. -/
theorem firstTree?_entries (entries : Dictionary) (done : List (Tree × Tree)) (frames : List Frame)
    (es : List Event) :
    firstTree? (.dictionary done none :: frames) (entryEvents entries ++ es) =
      firstTree?
        (.dictionary ((entries.map fun e => (.value (.string e.1), .value e.2)).reverse ++ done)
          none :: frames) es := by
  induction entries generalizing done with
  | nil => rfl
  | cons e entries ih =>
    rw [List.map_cons, List.reverse_cons, List.append_assoc]
    exact ih _

/-- A dictionary that was written is read entry by entry. -/
theorem read?_document {entries : Dictionary} (hne : entries ≠ []) (h : ∀ e ∈ entries, IsLeaf e.2) :
    read? (ofString (document (.dictionary entries))) =
      some { root := .dictionary (entries.map fun e => (.value (.string e.1), .value e.2)),
             sound := true } := by
  obtain ⟨ts, hscan, hevents⟩ := Gives.document hne h _ le_rfl
  have hmark : dropByteOrderMark (ofString (document (.dictionary entries))) =
      ofString (document (.dictionary entries)) := by
    rw [ofString_document (lines_dictionary_ne_nil hne)]
    rfl
  rw [read?, hmark, Token.scan, Text.wholePrefix_ofString, hscan]
  dsimp only
  rw [hevents, firstTree?]
  dsimp only [Assembly.step?]
  rw [firstTree?_entries, firstTree?]
  dsimp only [Assembly.step?, Assembly.put]
  simp

/-! ### What no document begins with -/

/-- What was read before a text stays in front of it. -/
theorem exists_of_resolve? {done : List (Option Char)} {name : Option (List Char)} {cs : List Char}
    {r : List (Option Char)} (h : resolve? done name cs = some r) :
    ∃ more, r = done.reverse ++ more := by
  induction cs generalizing done name with
  | nil =>
    rw [resolve?] at h
    split_ifs at h
    rw [Option.some.injEq] at h
    exact ⟨[], by rw [← h, List.append_nil]⟩
  | cons c cs ih =>
    have hlonger {d : Option Char} {name : Option (List Char)}
        (h : resolve? (d :: done) name cs = some r) : ∃ more, r = done.reverse ++ more := by
      obtain ⟨more, rfl⟩ := ih h
      exact ⟨d :: more, by rw [List.reverse_cons, List.append_assoc]; rfl⟩
    rcases name with - | name
    · rw [resolve?] at h
      split_ifs at h
      · exact ih h
      · exact hlonger h
    · rw [resolve?] at h
      split_ifs at h
      · rcases hr : reference? name.reverse with - | d
        · rw [hr] at h
          contradiction
        · rw [hr] at h
          exact hlonger h
      · exact ih h

/-- Text that begins with a control character in front of the tabulator is no white space. -/
theorem step?_text_of_lt {b : UInt8} (hb : b.toNat < 9) (raw : Bytes) :
    Position.step? {} (.text (b :: raw)) = none := by
  rw [step?_text]
  rcases hs : Bytes.toString? (b :: raw) with - | s
  · rw [content?, hs]
    rfl
  have hbytes := Bytes.ofString_of_toString? hs
  rw [Bytes.ofString_eq_flatMap] at hbytes
  rcases hlist : s.toList with - | ⟨c, cs⟩
  · rw [hlist] at hbytes
    contradiction
  have hnumber : c.toNat = b.toNat := by
    refine Bytes.toNat_of_mem_utf8EncodeChar (by omega) ?_
    obtain ⟨d, more, hc, -⟩ := Text.nextChar_encode c []
    rw [hlist, List.flatMap_cons, hc, List.cons_append] at hbytes
    rw [hc, (List.cons.inj hbytes).1]
    exact List.mem_cons_self
  -- It is no reference, so it is the first character of the text.
  have hamp : c ≠ '&' := by
    rintro rfl
    rw [← hnumber] at hb
    exact absurd hb (by decide)
  rw [content?, hs, Option.bind_some, hlist, resolve?]
  simp only [hamp, if_false]
  rcases hr : resolve? [some c] none cs with - | r
  · rfl
  obtain ⟨more, rfl⟩ := exists_of_resolve? hr
  have hwhite : isWhite c = false := by
    simp [isWhite]
    omega
  simp [hwhite]

/-- A document does not begin with such a character. -/
theorem read?_of_lt {b : UInt8} (hb : b.toNat < 9) (bs : Bytes) : read? (b :: bs) = none := by
  have hne {d : UInt8} (hd : 9 ≤ d.toNat) : b ≠ d := by
    rintro rfl
    omega
  have hmark : dropByteOrderMark (b :: bs) = b :: bs := by
    rw [dropByteOrderMark]
    rintro rest ⟨⟩
    exact hne (by decide) rfl
  have hplain : b.toNat < 128 := by omega
  obtain ⟨whole, hwhole⟩ := Text.wholePrefix_of_lt hplain bs
  have hnext : Token.next? (b :: whole) =
      some ([.text (b :: whole.takeWhile (· ≠ 0x3C))], whole.dropWhile (· ≠ 0x3C)) := by
    have hb' : b ≠ 0x3C := hne (by decide)
    rw [Token.next?]
    · simp [hb']
    · rintro rest ⟨⟩
      exact hb' rfl
  -- So the document begins with text, which goes up to the first tag.
  obtain ⟨more, sound, hscan⟩ : ∃ more sound, Token.scan (b :: bs) =
      (.text (b :: whole.takeWhile (· ≠ 0x3C)) :: more, sound) := by
    rw [Token.scan, hwhole, List.length_cons, Token.scanFrom, hnext]
    · exact ⟨_, _, rfl⟩
    · exact List.cons_ne_nil _ _
  rw [read?, hmark, hscan]
  dsimp only
  rw [events, step?_text_of_lt hb]
  rfl

end Tether.Plist.Xml

namespace Tether.Plist

open Bytes (ofString)

variable {entries : Dictionary}

/-- A written document is not taken for a binary one. -/
theorem ofBytes?_document (hne : entries ≠ []) (h : ∀ e ∈ entries, Xml.IsLeaf e.2) :
    Reading.ofBytes? (ofString (Xml.document (.dictionary entries))) =
      some { root := .dictionary (entries.map fun e => (.value (.string e.1), .value e.2)),
             sound := true } := by
  have hfront : (ofString (Xml.document (.dictionary entries))).take 8 = ofString "<?xml ve" := by
    rw [Xml.ofString_document (Xml.lines_dictionary_ne_nil hne)]
    rfl
  have hlength := congrArg List.length hfront
  rw [List.length_take, show (ofString "<?xml ve").length = 8 from rfl] at hlength
  rw [Reading.ofBytes?, if_neg (by omega), hfront, if_neg (by decide), Xml.read?_document hne h]

theorem entriesToPlist?_map (entries : Dictionary) :
    Tree.entriesToPlist? (entries.map fun e => (.value (.string e.1), .value e.2)) =
      some entries := by
  induction entries with
  | nil => rw [List.map_nil, Tree.entriesToPlist?]
  | cons e entries ih =>
    rw [List.map_cons, Tree.entriesToPlist?, ih, Tree.toPlist?]
    rfl

/-- A dictionary whose keys are different is read from the document that was written for it. -/
theorem dictionaryOfBytes?_document (hne : entries ≠ []) (h : ∀ e ∈ entries, Xml.IsLeaf e.2)
    (hkeys : entries.keys.Nodup) :
    dictionaryOfBytes? (ofString (Xml.document (.dictionary entries))) = some entries := by
  rw [dictionaryOfBytes?, Plist.ofBytes?, ofBytes?_document hne h, Option.bind_some,
    Reading.toPlist?, if_pos rfl, Tree.toPlist?, entriesToPlist?_map, Option.map_some,
    Entries.ofList_of_nodup hkeys]
  rfl

/-- No document in either form begins with such a character. -/
theorem dictionaryOfBytes?_of_lt {b : UInt8} (hb : b.toNat < 9) (bs : Bytes) :
    dictionaryOfBytes? (b :: bs) = none := by
  have hmagic : (b :: bs).take 8 ≠ Binary.magic := by
    rw [List.take_succ_cons]
    rintro h
    rw [(List.cons.inj h).1] at hb
    exact absurd hb (by decide)
  have hread : Reading.ofBytes? (b :: bs) = none := by
    rw [Reading.ofBytes?, if_neg hmagic, Xml.read?_of_lt hb, ite_self]
  rw [dictionaryOfBytes?, Plist.ofBytes?, hread]
  rfl

end Tether.Plist
