import CorpusQuery.Document.Property
import CorpusQuery.Proofs.Job.Runs
import CorpusQuery.Proofs.Markdown.Escaping

/-!
# The link to a document

A column shows the name of a document as a link to its page. The path in the address and the name
between the tags are written so that no character of theirs has a meaning in HTML. The name of the
corpus is put into the address as it is: the link is intact if and only if that name may stand in an
address (`isAnchor_shown_name`).
-/

namespace CorpusQuery

/-! ## Links in HTML -/

namespace Html

/-- A text that can stand between two tags without making a tag. -/
def IsLabel (s : String) : Prop := '<' ∉ s.toList ∧ '>' ∉ s.toList ∧ '"' ∉ s.toList

/-- A character that can stand in an address in double quotes. -/
def IsAddressChar (c : Char) : Prop := c ≠ '"' ∧ c ≠ '<' ∧ c ≠ '>' ∧ Text.isBlank c = false

/-- A text that can stand as an address in double quotes. -/
def IsAddress (s : String) : Prop := ∀ c ∈ s.toList, IsAddressChar c

/-- One link under a name: an address in quotes that it does not leave, and between the tags a text
that stands for the name and has no tags in it. -/
inductive IsAnchor (name : String) : String → Prop
  | anchor {address label : String} (haddress : IsAddress address) (hlabel : IsLabel label)
      (hname : unescape label = name) :
      IsAnchor name ("<a href=\"" ++ address ++ "\">" ++ label ++ "</a>")

theorem isLabel_escape (s : String) : IsLabel (escape s) := by
  have hsafe := isSafe_escape s
  exact ⟨hsafe.undelimited '<' (by decide), hsafe.undelimited '>' (by decide),
    hsafe.undelimited '"' (by decide)⟩

end Html

/-! ## Addresses -/

namespace Path

/-- The characters of an encoded path: those that stand for themselves, `%`, and the slash. -/
def isEncodedChar (c : Char) : Bool :=
  c.isAlphanum || c == '-' || c == '_' || c == '.' || c == '~' || c == '%' || c == '/'

theorem isEncodedChar_hexDigit {n : Nat} (h : n < 16) : isEncodedChar (hexDigit n) = true := by
  revert n
  decide

theorem isEncodedChar_of_encodeByte {b : UInt8} {c : Char} (h : c ∈ encodeByte b) :
    isEncodedChar c = true := by
  have hbyte : b.toNat < 256 := b.toNat_lt
  unfold encodeByte at h
  split at h
  · next hkept =>
    obtain rfl := List.mem_singleton.mp h
    simp only [isUnreserved, Bool.and_eq_true, Bool.or_eq_true] at hkept
    simp only [isEncodedChar, Bool.or_eq_true]
    exact .inl (.inl hkept.2)
  · simp only [List.mem_cons, List.not_mem_nil, or_false] at h
    rcases h with rfl | rfl | rfl
    · decide
    · exact isEncodedChar_hexDigit (by omega)
    · exact isEncodedChar_hexDigit (by omega)

theorem isEncodedChar_of_encodeSegment {s : String} {c : Char}
    (h : c ∈ (encodeSegment s).toList) : isEncodedChar c = true := by
  rw [encodeSegment, String.toList_ofList] at h
  obtain ⟨b, -, hc⟩ := List.mem_flatMap.mp h
  exact isEncodedChar_of_encodeByte hc

theorem mem_intercalate {words : List String} {c : Char}
    (h : c ∈ (String.intercalate "/" words).toList) :
    c = '/' ∨ ∃ word ∈ words, c ∈ word.toList := by
  rw [String.toList_intercalate] at h
  induction words with
  | nil => simp at h
  | cons word words ih =>
    cases words with
    | nil => exact .inr ⟨word, by simp, by simpa using h⟩
    | cons next words =>
      rw [List.map_cons, List.map_cons, List.intercalate_cons_cons, List.mem_append,
        List.mem_append, ← List.map_cons] at h
      rcases h with (h | h) | h
      · exact .inr ⟨word, by simp, h⟩
      · exact .inl (by simpa using h)
      · exact (ih h).imp_right fun ⟨word, hword, hc⟩ => ⟨word, List.mem_cons_of_mem _ hword, hc⟩

/-- An encoded path holds nothing but encoded characters, whatever the names in it are. -/
theorem isEncodedChar_of_encode {path : String} {c : Char} (h : c ∈ (encode path).toList) :
    isEncodedChar c = true := by
  rcases mem_intercalate h with rfl | ⟨word, hword, hc⟩
  · rfl
  · obtain ⟨component, -, rfl⟩ := List.mem_map.mp hword
    exact isEncodedChar_of_encodeSegment hc

end Path

theorem Path.toNat_of_isEncodedChar {c : Char} (h : Path.isEncodedChar c = true) :
    32 < c.toNat ∧ c.toNat < 127 := by
  simp only [Path.isEncodedChar, Bool.or_eq_true, beq_iff_eq] at h
  rcases h with (((((h | rfl) | rfl) | rfl) | rfl) | rfl) | rfl
  · have hranges : ((decide (c.val ≥ 'A'.val ∧ c.val ≤ 'Z'.val) ||
        (decide (c.val ≥ 'a'.val) && decide (c.val ≤ 'z'.val))) ||
        (decide (c.val ≥ '0'.val) && decide (c.val ≤ '9'.val))) = true := h
    have hval : c.val.toNat = c.toNat := rfl
    simp only [Bool.or_eq_true, Bool.and_eq_true, decide_eq_true_eq, UInt32.le_iff_toNat_le,
      ge_iff_le, Char.reduceVal, UInt32.reduceToNat] at hranges
    omega
  all_goals decide

/-- An encoded character neither ends an attribute nor makes a tag or a gap. -/
theorem Html.isAddressChar_of_encoded {c : Char} (h : Path.isEncodedChar c = true) :
    IsAddressChar c := by
  refine ⟨?_, ?_, ?_, ?_⟩
  · rintro rfl; revert h; decide
  · rintro rfl; revert h; decide
  · rintro rfl; revert h; decide
  · obtain ⟨hlow, hhigh⟩ := Path.toNat_of_isEncodedChar h
    simp only [Text.isBlank, Bool.or_eq_false_iff, Bool.and_eq_false_imp, decide_eq_true_eq,
      decide_eq_false_iff_not, beq_eq_false_iff_ne]
    omega

namespace Document

open Html

/-- The address of a page can stand in quotes if the name of the corpus can. -/
theorem isAddress_pageUrl_iff (corpus : Corpus) (path : String) :
    IsAddress (corpus.pageUrl path) ↔ IsAddress corpus.name := by
  have hmem {c : Char} : c ∈ (corpus.pageUrl path).toList ↔
      c ∈ "/renderer/".toList ∨ c ∈ corpus.name.toList ∨ c ∈ "/".toList ∨
        c ∈ (Path.encode path).toList := by
    simp only [Corpus.pageUrl, String.toList_append, List.mem_append, or_assoc]
  constructor
  · intro h c hc
    exact h c (hmem.mpr (.inr (.inl hc)))
  · intro h c hc
    rcases hmem.mp hc with hc | hc | hc | hc
    · have hword : "/renderer/".toList.all Path.isEncodedChar = true := by decide
      exact isAddressChar_of_encoded (List.all_eq_true.mp hword c hc)
    · exact h c hc
    · have hslash : "/".toList.all Path.isEncodedChar = true := by decide
      exact isAddressChar_of_encoded (List.all_eq_true.mp hslash c hc)
    · exact isAddressChar_of_encoded (Path.isEncodedChar_of_encode hc)

/-- The address of a link can be read off: only one quote comes after it. -/
theorem isAddress_of_isAnchor {name address label : String}
    (h : IsAnchor name ("<a href=\"" ++ address ++ "\">" ++ label ++ "</a>")) :
    IsAddress address := by
  generalize hcell : "<a href=\"" ++ address ++ "\">" ++ label ++ "</a>" = cell at h
  cases h with
  | @anchor address' label' haddress hlabel hname =>
    have hquoted : '"' ∉ address'.toList := fun h => (haddress _ h).1 rfl
    have hbehind : '"' ∉ '>' :: (label'.toList ++ "</a>".toList) := by
      simp [hlabel.2.2]
    have hrest : address'.toList ++ '"' :: ('>' :: (label'.toList ++ "</a>".toList)) =
        address.toList ++ '"' :: ('>' :: (label.toList ++ "</a>".toList)) := by
      have hlist := congrArg String.toList hcell.symm
      simp only [String.toList_append, List.append_assoc] at hlist
      exact List.append_cancel_left hlist
    have hsame := ((List.append_cons_inj_of_notMem hquoted hbehind).mp hrest).1
    exact String.toList_inj.mp hsame ▸ haddress

/-- The link to a document is intact if and only if the name of the corpus can stand in an
address. -/
theorem isAnchor_nameLink_iff (corpus : Corpus) (doc : Document) :
    IsAnchor doc.name (nameLink corpus doc) ↔ IsAddress corpus.name := by
  rw [← isAddress_pageUrl_iff corpus doc.path, nameLink]
  exact ⟨isAddress_of_isAnchor, fun h => .anchor h (isLabel_escape _) (unescape_escape _)⟩

variable (snapshot : Snapshot) (doc : Document) (state : Option Content)

/-- The name that a column shows is a link whose address holds the name of the corpus as it is. The
rest of the address and the label are safe for every path. The whole is one intact link if and only
if the name of the corpus can stand in an address. -/
theorem isAnchor_shown_name :
    ∃ cell path label,
      ((doc.property snapshot true ["file", "name"]).run state).result = .ok (.str cell) ∧
      cell = "<a href=\"" ++ ("/renderer/" ++ snapshot.corpus.name ++ "/" ++ path) ++ "\">" ++
        label ++ "</a>" ∧
      (∀ c ∈ path.toList, Path.isEncodedChar c = true) ∧
      IsLabel label ∧ unescape label = doc.name ∧
      (IsAnchor doc.name cell ↔ IsAddress snapshot.corpus.name) :=
  ⟨nameLink snapshot.corpus doc, Path.encode doc.path, escape doc.name, rfl, rfl,
    fun _ => Path.isEncodedChar_of_encode, isLabel_escape _, unescape_escape _,
    isAnchor_nameLink_iff _ doc⟩

/-- The link to a note in a corpus with a quote in its name: the address ends at that quote. -/
theorem not_isAnchor_of_quote :
    let corpus : Corpus := ⟨"a\"b", ["notes"], {}⟩
    let doc : Document := ⟨"/notes/n.md", "n.md"⟩
    (∀ disk index state,
      ((doc.property ⟨corpus, disk, index⟩ true ["file", "name"]).run state).result =
        .ok (.str "<a href=\"/renderer/a\"b/n.md\">n.md</a>")) ∧
      ¬IsAnchor doc.name "<a href=\"/renderer/a\"b/n.md\">n.md</a>" := by
  intro corpus doc
  have hlink : nameLink corpus doc = "<a href=\"/renderer/a\"b/n.md\">n.md</a>" := by decide +kernel
  refine ⟨fun disk index state => ?_, ?_⟩
  · rw [← hlink]
    rfl
  · rw [← hlink, isAnchor_nameLink_iff]
    intro h
    have hquote : '"' ∈ corpus.name.toList := by decide
    exact (h _ hquote).1 rfl

end Document

end CorpusQuery
