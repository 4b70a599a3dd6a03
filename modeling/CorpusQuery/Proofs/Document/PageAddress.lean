import CorpusQuery.Proofs.Corpus.VisibleFiles
import CorpusQuery.Proofs.Document.Extraction
import CorpusQuery.Proofs.Document.NameLink

/-!
# Addresses of pages

The address of a page names its document. The names in a path are got back from the address: no
encoded name has a slash in it, so that splitting at the slashes gives the encoded names, and
decoding undoes the encoding of each of them (`decodeSegment?_encodeSegment`). So two paths have one
address only if they have the same components, and two documents of a corpus never share an address
(`pageUrl_identifies_document`).
-/

namespace CorpusQuery

namespace Path

/-! ## Decoding -/

/-- The value of a hexadecimal digit, with small or capital letters. -/
def hexValue? (c : Char) : Option Nat :=
  if '0' ≤ c ∧ c ≤ '9' then some (c.toNat - '0'.toNat)
  else if 'A' ≤ c ∧ c ≤ 'F' then some (c.toNat - 'A'.toNat + 10)
  else if 'a' ≤ c ∧ c ≤ 'f' then some (c.toNat - 'a'.toNat + 10)
  else none

/-- The bytes that a part of an address stands for. A percent sign that no two digits follow stands
for itself. -/
def decodeBytes : List Char → List UInt8
  | [] => []
  | '%' :: high :: low :: rest =>
    match hexValue? high, hexValue? low with
    | some h, some l => UInt8.ofNat (16 * h + l) :: decodeBytes rest
    | _, _ => UInt8.ofNat '%'.toNat :: decodeBytes (high :: low :: rest)
  | c :: rest => String.utf8EncodeChar c ++ decodeBytes rest

/-- The text that a part of an address stands for, if its bytes are one. -/
def decodeSegment? (s : String) : Option String :=
  String.fromUTF8? (decodeBytes s.toList).toByteArray

theorem hexValue?_hexDigit {n : Nat} (h : n < 16) : hexValue? (hexDigit n) = some n := by
  revert n
  decide

theorem utf8EncodeChar_ofNat {n : Nat} (h : n < 128) :
    String.utf8EncodeChar (Char.ofNat n) = [UInt8.ofNat n] := by
  revert n
  decide

theorem decodeBytes_cons {c : Char} (h : c ≠ '%') (rest : List Char) :
    decodeBytes (c :: rest) = String.utf8EncodeChar c ++ decodeBytes rest := by
  rw [decodeBytes]
  rintro _ _ _ rfl
  exact absurd rfl h

theorem decodeBytes_encodeByte (b : UInt8) (rest : List Char) :
    decodeBytes (encodeByte b ++ rest) = b :: decodeBytes rest := by
  have hbyte : b.toNat < 256 := b.toNat_lt
  unfold encodeByte
  split
  · next hkept =>
    have hkept : b < 128 ∧ Char.ofNat b.toNat ≠ '%' := by
      simp only [isUnreserved, Bool.and_eq_true, decide_eq_true_eq] at hkept
      refine ⟨hkept.1, fun heq => ?_⟩
      rw [heq] at hkept
      exact absurd hkept.2 (by decide)
    have hascii : b.toNat < 128 := UInt8.lt_iff_toNat_lt.mp hkept.1
    rw [List.singleton_append, decodeBytes_cons hkept.2, utf8EncodeChar_ofNat hascii,
      UInt8.ofNat_toNat, List.singleton_append]
  · have hvalue : 16 * (b.toNat / 16) + b.toNat % 16 = b.toNat := Nat.div_add_mod _ _
    simp only [List.cons_append, List.nil_append, decodeBytes,
      hexValue?_hexDigit (Nat.mod_lt b.toNat (by decide : 0 < 16)),
      hexValue?_hexDigit (show b.toNat / 16 < 16 by omega), hvalue, UInt8.ofNat_toNat]

theorem decodeBytes_flatMap (bytes : List UInt8) :
    decodeBytes (bytes.flatMap encodeByte) = bytes := by
  induction bytes with
  | nil => rfl
  | cons b bytes ih => rw [List.flatMap_cons, decodeBytes_encodeByte, ih]

/-- Nothing is lost in encoding a name. -/
theorem decodeSegment?_encodeSegment (s : String) : decodeSegment? (encodeSegment s) = some s := by
  rw [decodeSegment?, encodeSegment, String.toList_ofList, decodeBytes_flatMap,
    Content.fromUTF8?_eq_some_iff, String.toUTF8_eq_toByteArray]
  exact String.utf8Encode_toList

/-! ## Splitting -/

theorem hexDigit_ne_slash {n : Nat} (h : n < 16) : hexDigit n ≠ '/' := by
  revert n
  decide

/-- A slash in a name is encoded, so a slash in an address is always between names. -/
theorem no_slash_encodeSegment (s : String) : '/' ∉ (encodeSegment s).toList := by
  rw [encodeSegment, String.toList_ofList, List.mem_flatMap]
  rintro ⟨b, -, hslash⟩
  have hbyte : b.toNat < 256 := b.toNat_lt
  unfold encodeByte at hslash
  split at hslash
  · next hkept =>
    rw [isUnreserved, ← List.mem_singleton.mp hslash] at hkept
    simp at hkept
  · simp only [List.mem_cons, List.not_mem_nil, or_false] at hslash
    rcases hslash with hslash | hslash | hslash
    · cases hslash
    · exact hexDigit_ne_slash (by omega) hslash.symm
    · exact hexDigit_ne_slash (by omega) hslash.symm

/-- The components of a path are got back from its address. -/
theorem decode_encode {path : String} (h : components path ≠ []) :
    (Text.splitString '/' (encode path)).map decodeSegment? =
      (components path).map fun component => some component.text := by
  have hsplit : Text.splitString '/' (encode path) =
      (components path).map fun component => encodeSegment component.text := by
    have hslash : "/" = String.ofList ['/'] := rfl
    rw [encode, hslash, Text.splitString_intercalate_iff, List.forall_mem_map]
    exact ⟨by simpa using h, fun component _ => no_slash_encodeSegment component.text⟩
  rw [hsplit, List.map_map]
  refine List.map_congr_left fun component _ => ?_
  rw [Function.comp_apply, decodeSegment?_encodeSegment]

/-! ## Components -/

/-- The component with the given text. -/
def Component.ofText (s : String) : Component :=
  if s = "/" then .root else if s = "." then .here else pieceComponent s

theorem Component.ofText_text {path : String} {component : Component}
    (h : component ∈ components path) : ofText component.text = component := by
  cases component with
  | root => rfl
  | here => rfl
  | up => rfl
  | name s =>
    have hname := isName_of_mem_components h
    have hslash : s ≠ "/" := by
      rintro rfl
      exact hname.no_slash (by decide)
    have hpoint : s ≠ "." := by
      rintro rfl
      exact absurd hname.proper (by decide)
    rw [ofText, text, if_neg hslash, if_neg hpoint, hname.component_eq]

theorem Component.text_ne_empty {path : String} {component : Component}
    (h : component ∈ components path) : component.text ≠ "" := by
  cases component with
  | root => decide
  | here => decide
  | up => decide
  | name s =>
    rintro rfl
    exact absurd (isName_of_mem_components h).proper (by decide)

/-- A path has an empty address only if there is nothing in it. -/
theorem encode_eq_empty_iff {path : String} : encode path = "" ↔ components path = [] := by
  constructor
  · intro hempty
    by_contra hne
    -- the one piece of the empty text would be a component without a text
    have hpieces : (Text.splitString '/' "").map decodeSegment? = [some ""] :=
      congrArg (fun text => [text]) (decodeSegment?_encodeSegment "")
    obtain ⟨component, others, hcomponents⟩ := List.exists_cons_of_ne_nil hne
    have hdecoded := decode_encode hne
    rw [hempty, hpieces, hcomponents, List.map_cons] at hdecoded
    exact Component.text_ne_empty (hcomponents ▸ List.mem_cons_self)
      (Option.some.inj (List.cons.inj hdecoded).1).symm
  · intro hnone
    rw [encode, hnone]
    rfl

theorem encode_inj {path other : String} :
    encode path = encode other ↔ components path = components other := by
  refine ⟨fun heq => ?_, fun heq => by rw [encode, encode, heq]⟩
  by_cases hnone : components path = []
  · rw [encode_eq_empty_iff.mpr hnone] at heq
    rw [hnone, encode_eq_empty_iff.mp heq.symm]
  · have hsome : components other ≠ [] := by
      rwa [ne_eq, ← encode_eq_empty_iff, ← heq, encode_eq_empty_iff]
    -- what is decoded tells the components, since each of them has a text of its own
    have hback (path : String) : ((components path).map fun component => some component.text).map
        (fun text => Component.ofText (text.getD "")) = components path := by
      rw [List.map_map]
      exact (List.map_congr_left fun component hmem => Component.ofText_text hmem).trans
        (List.map_id _)
    rw [← hback path, ← decode_encode hnone, heq, decode_encode hsome, hback other]

end Path

/-! ## Pages -/

namespace Index

/-- The names in the paths of an index are names that a file can have. -/
theorem isName_of_mem_files {d : Disk} {root : Disk.Place} {index : Index}
    (hdistinct : d.Distinct) (hnamed : d.Named) (h : ofDisk d root = .ok index) {path : RelPath}
    (hpath : path ∈ index.files) : ∀ name ∈ path, Path.IsName name := by
  obtain ⟨place, entries, -, hplace, hfiles⟩ :=
    Disk.visibleFiles_eq_ok_iff.mp (Disk.visibleFiles_of_ofDisk h)
  rw [hfiles, List.mem_mergeSort, Disk.mem_filesIn_iff hdistinct hplace] at hpath
  obtain ⟨-, node, hnode, -⟩ := Disk.isVisible_iff.mp hpath
  intro name hname
  exact Disk.isName_of_nodeIn? hnamed hnode name (List.mem_append_right place hname)

end Index

namespace Document

/-- The address of a page is that of its corpus and an encoded path, in which letters and digits of
ASCII, `-`, `_`, `.`, `~`, `%` and `/` are the only characters. The pieces of the encoded path
between its slashes, decoded, are the components of the path; a path with nothing in it is encoded
as the empty text. So the address decides the components, and documents of a corpus at different
paths have different addresses. -/
theorem pageUrl_identifies_document (corpus : Corpus) :
    (∀ path, ∃ encoded,
      corpus.pageUrl path = "/renderer/" ++ corpus.name ++ "/" ++ encoded ∧
      (∀ c ∈ encoded.toList, Path.isEncodedChar c = true) ∧
      (Path.components path ≠ [] →
        (Text.splitString '/' encoded).map Path.decodeSegment? =
          (Path.components path).map fun component => some component.text) ∧
      (Path.components path = [] → encoded = "")) ∧
    (∀ path other,
      corpus.pageUrl path = corpus.pageUrl other ↔ Path.components path = Path.components other) ∧
    ∀ disk index, disk.Distinct → disk.Named → Index.ofDisk disk corpus.root = .ok index →
      ∀ path ∈ index.files, ∀ other ∈ index.files, path ≠ other →
        corpus.pageUrl (ofPath corpus path).path ≠ corpus.pageUrl (ofPath corpus other).path := by
  have hpages (path other : String) : corpus.pageUrl path = corpus.pageUrl other ↔
      Path.components path = Path.components other := by
    rw [Corpus.pageUrl, Corpus.pageUrl, String.append_right_inj, Path.encode_inj]
  refine ⟨fun path => ?_, hpages, ?_⟩
  · exact ⟨Path.encode path, rfl, fun _ => Path.isEncodedChar_of_encode, Path.decode_encode,
      Path.encode_eq_empty_iff.mpr⟩
  · intro disk index hdistinct hnamed hwalk path hpath other hother hne heq
    have hcomponents := (hpages path.text other.text).mp heq
    rw [Path.components_text (Index.isName_of_mem_files hdistinct hnamed hwalk hpath),
      Path.components_text (Index.isName_of_mem_files hdistinct hnamed hwalk hother)] at hcomponents
    exact hne (List.map_injective_iff.mpr (fun _ _ => Path.Component.name.inj) hcomponents)

/-- A path with characters that have a meaning in addresses, and two notes on one disk. -/
theorem pageUrl_identifies_document_of_marks :
    let corpus : Corpus := ⟨"my notes", ["notes"], {}⟩
    (∃ encoded, corpus.pageUrl "50%2F/a#b?é.md" = "/renderer/" ++ corpus.name ++ "/" ++ encoded ∧
      (Text.splitString '/' encoded).map Path.decodeSegment? = [some "50%2F", some "a#b?é.md"]) ∧
    Index.ofDisk Index.hiddenNotes corpus.root = .ok ⟨[["a.md"], ["real", "n.md"]]⟩ ∧
    corpus.pageUrl (ofPath corpus ["a.md"]).path ≠
      corpus.pageUrl (ofPath corpus ["real", "n.md"]).path := by
  intro corpus
  obtain ⟨hpage, -, hdocuments⟩ := pageUrl_identifies_document corpus
  have hcomponents : Path.components "50%2F/a#b?é.md" = [.name "50%2F", .name "a#b?é.md"] := by
    decide +kernel
  obtain ⟨encoded, hurl, -, hparts, -⟩ := hpage "50%2F/a#b?é.md"
  rw [hcomponents] at hparts
  exact ⟨⟨encoded, hurl, hparts (by simp)⟩, Index.ofDisk_hiddenNotes,
    hdocuments Index.hiddenNotes _ Index.distinct_hiddenNotes Index.named_hiddenNotes
      Index.ofDisk_hiddenNotes ["a.md"] (by simp) ["real", "n.md"] (by simp) (by decide)⟩

end Document

end CorpusQuery
