import CorpusQuery.Markdown
import CorpusQuery.Proofs.Text.Pieces

/-!
# Links in a text

The brackets of links are paired from the start of a text: two opening brackets go with the next
two closing ones, and what stands between them is one link, whatever other brackets there are in it.
So a written link is found if and only if the text before it has closed all links
(`wikilinks_around`). Brackets that are still open take in the link that comes next
(`not_every_link_found`).
-/

namespace CorpusQuery.Markdown

open Text

/-- The brackets before a link. -/
abbrev opening : List Char := ['[', '[']

/-- The brackets behind a link. -/
abbrev closing : List Char := [']', ']']

/-- The target of the link with the given text between its brackets. -/
def target? (body : List Char) : Option (List Char) :=
  let target := body.takeWhile (· != '|')
  if target.isEmpty || target.contains '[' then none else some target

/-- The target of a link that was opened with `left` behind the brackets, if `left` names one and
goes on to an alias. -/
def aliased? (left : List Char) : Option (List Char) :=
  if '|' ∈ left then target? left else none

/-- A link as it is written. -/
structure Link where
  target : String
  alias? : Option String
  target_ne : target ≠ ""
  noMarks : '[' ∉ target.toList ∧ ']' ∉ target.toList ∧ '|' ∉ target.toList
  noBrackets : ∀ a ∈ alias?, '[' ∉ a.toList ∧ ']' ∉ a.toList

namespace Link

variable (link : Link)

/-- The text of a link. -/
def text : String :=
  match link.alias? with
  | none => "[[" ++ link.target ++ "]]"
  | some a => "[[" ++ link.target ++ "|" ++ a ++ "]]"

/-- What stands between the brackets of a link. -/
def body : List Char :=
  link.target.toList ++ (link.alias?.map fun a => '|' :: a.toList).getD []

theorem toList_text : link.text.toList = opening ++ link.body ++ closing := by
  unfold text body
  cases link.alias? <;> simp

theorem bracket_not_mem_body : '[' ∉ link.body ∧ ']' ∉ link.body := by
  obtain ⟨hopen, hclose, -⟩ := link.noMarks
  have halias := link.noBrackets
  unfold body
  cases h : link.alias? with
  | none => simp [hopen, hclose]
  | some a => simp_all

theorem target?_body : target? link.body = some link.target.toList := by
  obtain ⟨hopen, -, hbar⟩ := link.noMarks
  have htarget : link.body.takeWhile (· != '|') = link.target.toList := by
    have hkept : ∀ c ∈ link.target.toList, (c != '|') = true :=
      fun c hc => bne_iff_ne.mpr (ne_of_mem_of_not_mem hc hbar)
    rw [body, List.takeWhile_append_of_pos hkept]
    cases link.alias? <;> simp
  simp [target?, htarget, link.target_ne, hopen]

end Link

/-! ## Texts with and without open links -/

/-- A text in which every link that was opened is closed. -/
inductive Closed : List Char → Prop
  | gap {s : List Char} (h : ¬opening <:+: s ++ ['[']) : Closed s
  | link {gap body rest : List Char} (hgap : ¬opening <:+: gap ++ ['['])
      (hbody : ¬closing <:+: body ++ [']']) (hrest : Closed rest) :
      Closed (gap ++ opening ++ (body ++ closing ++ rest))

/-- A text in which, after some links, a last one is opened, with `left` behind its brackets. It
also counts if only the first of the two brackets is there. -/
inductive LeavesOpen : List Char → List Char → Prop
  | bracket {gap : List Char} (hgap : ¬opening <:+: gap ++ ['[']) : LeavesOpen (gap ++ ['[']) []
  | brackets {gap left : List Char} (hgap : ¬opening <:+: gap ++ ['['])
      (hleft : ¬closing <:+: left) : LeavesOpen (gap ++ opening ++ left) left
  | link {gap body rest left : List Char} (hgap : ¬opening <:+: gap ++ ['['])
      (hbody : ¬closing <:+: body ++ [']']) (hrest : LeavesOpen rest left) :
      LeavesOpen (gap ++ opening ++ (body ++ closing ++ rest)) left

variable {s gap body left : List Char}

theorem cut?_opening (h : ¬opening <:+: gap ++ ['[']) (inner : List Char) :
    cut? opening (gap ++ opening ++ inner) = some (gap, inner) :=
  (cut?_eq_some_iff (List.cons_ne_nil _ _)).mpr ⟨rfl, h⟩

theorem cut?_closing (h : ¬closing <:+: body ++ [']']) (rest : List Char) :
    cut? closing (body ++ closing ++ rest) = some (body, rest) :=
  (cut?_eq_some_iff (List.cons_ne_nil _ _)).mpr ⟨rfl, h⟩

/-- Every text has closed all links or leaves one open. -/
theorem closed_or_leavesOpen (s : List Char) : Closed s ∨ ∃ left, LeavesOpen s left := by
  induction hlength : s.length using Nat.strong_induction_on generalizing s with
  | _ n ih =>
    cases hopen : cut? opening s with
    | none =>
      have hnone := (cut?_eq_none_iff (List.cons_ne_nil _ _)).mp hopen
      by_cases hlast : opening <:+: s ++ ['[']
      · rcases List.infix_concat_iff.mp hlast with hsuffix | hpart
        · obtain ⟨before, hbefore⟩ := hsuffix
          obtain rfl : before ++ ['['] = s := by
            refine List.append_cancel_right (Eq.trans ?_ hbefore)
            simp
          exact .inr ⟨[], .bracket hnone⟩
        · exact absurd hpart hnone
      · exact .inl (.gap hlast)
    | some cut =>
      obtain ⟨gap, inner⟩ := cut
      obtain ⟨rfl, hgap⟩ := (cut?_eq_some_iff (List.cons_ne_nil _ _)).mp hopen
      cases hclose : cut? closing inner with
      | none =>
        have hleft := (cut?_eq_none_iff (List.cons_ne_nil _ _)).mp hclose
        exact .inr ⟨inner, .brackets hgap hleft⟩
      | some cut =>
        obtain ⟨body, rest⟩ := cut
        obtain ⟨rfl, hbody⟩ := (cut?_eq_some_iff (List.cons_ne_nil _ _)).mp hclose
        -- one link is closed here, so the rest of the text decides
        have hless : rest.length < n := by
          simp only [List.length_append, List.length_cons, List.length_nil] at hlength
          omega
        rcases ih _ hless rest rfl with hrest | ⟨left, hrest⟩
        · exact .inl (.link hgap hbody hrest)
        · exact .inr ⟨left, .link hgap hbody hrest⟩

/-- No text does both. -/
theorem Closed.not_leavesOpen (h : Closed s) : ¬LeavesOpen s left := by
  induction h with
  | gap hs =>
    intro hopen
    apply hs
    cases hopen with
    | @bracket gap hgap => exact ⟨gap, [], by simp⟩
    | @brackets gap left hgap hleft => exact ⟨gap, left ++ ['['], by simp⟩
    | @link gap body rest left hgap hbody hrest =>
      exact ⟨gap, body ++ closing ++ rest ++ ['['], by simp⟩
  | @link gap body rest hgap hbody hrest ih =>
    intro hopen
    have hcut := cut?_opening hgap (body ++ closing ++ rest)
    generalize gap ++ opening ++ (body ++ closing ++ rest) = s at hopen hcut
    cases hopen with
    | bracket hgap' =>
      rw [(cut?_eq_none_iff (List.cons_ne_nil _ _)).mpr hgap'] at hcut
      cases hcut
    | brackets hgap' hleft =>
      rw [cut?_opening hgap'] at hcut
      cases hcut
      exact hleft ⟨body, rest, rfl⟩
    | @link _ body' rest' _ hgap' hbody' hrest' =>
      rw [cut?_opening hgap'] at hcut
      have hinner := (Prod.mk.inj (Option.some.inj hcut)).2
      have hclose := cut?_closing hbody rest
      rw [← hinner, cut?_closing hbody'] at hclose
      cases hclose
      exact ih hrest'

theorem closed_iff : Closed s ↔ ¬∃ left, LeavesOpen s left :=
  ⟨fun h ⟨_, hopen⟩ => h.not_leavesOpen hopen, (closed_or_leavesOpen s).resolve_right⟩

/-! ## Reading on -/

/-- What is found in a text, after its first opening brackets and the closing ones that go with
them. -/
theorem linksFrom_step (found : List (List Char)) (s : List Char) :
    linksFrom found s =
      match cut? opening s with
      | none => found.reverse
      | some (_, inner) =>
        match cut? closing inner with
        | none => found.reverse
        | some (body, rest) => linksFrom ((target? body).toList ++ found) rest := by
  rw [linksFrom]
  split
  · next h => rw [h]
  · next h =>
    rw [h]
    dsimp only
    split
    · next h => rw [h]
    · next h =>
      rw [h]
      dsimp only [target?]
      split <;> rfl

/-- What has been found stays in front. -/
theorem linksFrom_eq (found : List (List Char)) (s : List Char) :
    linksFrom found s = found.reverse ++ linksFrom [] s := by
  induction hlength : s.length using Nat.strong_induction_on generalizing found s with
  | _ n ih =>
    rw [linksFrom_step, linksFrom_step []]
    cases hopen : cut? opening s with
    | none => simp
    | some cut =>
      obtain ⟨gap, inner⟩ := cut
      dsimp only
      cases hclose : cut? closing inner with
      | none => simp
      | some cut =>
        obtain ⟨body, rest⟩ := cut
        dsimp only
        have hinner := length_lt_of_cut? (List.cons_ne_nil _ _) hopen
        have hrest := length_lt_of_cut? (List.cons_ne_nil _ _) hclose
        have hless : rest.length < n := by omega
        rw [ih _ hless _ rest rfl, ih _ hless ((target? body).toList ++ []) rest rfl]
        simp

theorem cut?_opening_gap (h : ¬opening <:+: gap ++ ['[']) (s : List Char) :
    cut? opening (gap ++ s) = (cut? opening s).map fun found => (gap ++ found.1, found.2) := by
  induction gap with
  | nil => simp
  | cons c gap ih =>
    rw [List.cons_append, List.infix_cons_iff, not_or] at h
    have hstart : ¬opening <+: c :: (gap ++ s) := by
      intro hstart
      cases gap with
      | nil => exact h.1 (by simp_all)
      | cons d gap => exact h.1 (by simpa using hstart)
    rw [List.cons_append, cut?_cons hstart, ih h.2, Option.map_map]
    rfl

/-- No link starts before the brackets that open one. -/
theorem linksFrom_gap (h : ¬opening <:+: gap ++ ['[']) (s : List Char) :
    linksFrom [] (gap ++ s) = linksFrom [] s := by
  rw [linksFrom_step, linksFrom_step [] s, cut?_opening_gap h]
  cases cut? opening s <;> rfl

theorem linksFrom_link (hbody : ¬closing <:+: body ++ [']']) (rest : List Char) :
    linksFrom [] (opening ++ (body ++ closing ++ rest)) =
      (target? body).toList ++ linksFrom [] rest := by
  rw [linksFrom_step, cut?_append]
  dsimp only
  rw [cut?_closing hbody]
  dsimp only
  rw [linksFrom_eq]
  cases target? body <;> rfl

theorem linksFrom_open (h : ¬closing <:+: left) : linksFrom [] (opening ++ left) = [] := by
  rw [linksFrom_step, cut?_append]
  dsimp only
  rw [(cut?_eq_none_iff (List.cons_ne_nil _ _)).mpr h]
  rfl

/-- After closed links, a text is read as if it stood alone. -/
theorem linksFrom_append_of_closed (h : Closed s) (rest : List Char) :
    linksFrom [] (s ++ rest) = linksFrom [] s ++ linksFrom [] rest := by
  have hnil : linksFrom [] [] = [] := by rw [linksFrom_step]; rfl
  induction h with
  | @gap s hs =>
    have hs' := linksFrom_gap hs []
    rw [List.append_nil, hnil] at hs'
    rw [linksFrom_gap hs, hs', List.nil_append]
  | @link gap body tail hgap hbody hrest ih =>
    have htext : gap ++ opening ++ (body ++ closing ++ tail) ++ rest =
        gap ++ (opening ++ (body ++ closing ++ (tail ++ rest))) := by
      simp only [List.append_assoc]
    rw [htext, linksFrom_gap hgap, linksFrom_link hbody, ih, List.append_assoc gap,
      linksFrom_gap hgap, linksFrom_link hbody, List.append_assoc]

/-- Without a closing bracket in its body, a link ends at the brackets behind it. -/
theorem not_closing_infix (h : ']' ∉ body) : ¬closing <:+: body ++ [']'] := by
  intro hpart
  rcases List.infix_concat_iff.mp hpart with hsuffix | hpart
  · obtain ⟨before, hbefore⟩ := hsuffix
    have hend : before ++ [']'] = body := by
      refine List.append_cancel_right (Eq.trans ?_ hbefore)
      simp
    exact h (hend ▸ List.mem_append_right _ List.mem_cons_self)
  · exact h (hpart.subset List.mem_cons_self)

/-- Opening brackets in the body of a link do not end it. -/
theorem not_closing_infix_append (hleft : ¬closing <:+: left) (h : ']' ∉ body) :
    ¬closing <:+: left ++ '[' :: body ++ [']'] := by
  induction left with
  | nil =>
    rw [List.nil_append, List.cons_append, List.infix_cons_iff, not_or]
    exact ⟨by simp, not_closing_infix h⟩
  | cons c left ih =>
    rw [List.infix_cons_iff, not_or] at hleft
    rw [List.cons_append, List.cons_append, List.infix_cons_iff, not_or]
    refine ⟨fun hstart => ?_, ih hleft.2⟩
    cases left with
    | nil => simp at hstart
    | cons d left => exact hleft.1 (by simpa using hstart)

/-- The target of a link with opening brackets in its body stands before an alias, and before those
brackets. -/
theorem target?_append (left body : List Char) :
    target? (left ++ '[' :: body) = aliased? left := by
  unfold aliased?
  split
  · next hbar =>
    obtain ⟨before, after, rfl, hbefore⟩ := List.eq_append_cons_of_mem hbar
    have hkept : ∀ c ∈ before, (c != '|') = true :=
      fun c hc => bne_iff_ne.mpr (ne_of_mem_of_not_mem hc hbefore)
    simp [target?, List.takeWhile_append_of_pos hkept]
  · next hbar =>
    have hkept : ∀ c ∈ left, (c != '|') = true :=
      fun c hc => bne_iff_ne.mpr (ne_of_mem_of_not_mem hc hbar)
    simp [target?, List.takeWhile_append_of_pos hkept]

/-- A text that leaves a link open takes in the link that comes next. -/
theorem linksFrom_append_of_leavesOpen (h : LeavesOpen s left) (hbody : ']' ∉ body)
    (rest : List Char) :
    linksFrom [] (s ++ (opening ++ body ++ closing ++ rest)) =
      linksFrom [] s ++ (aliased? left).toList ++ linksFrom [] rest := by
  have hgapOnly {gap : List Char} (hgap : ¬opening <:+: gap ++ ['[']) (s : List Char) :
      linksFrom [] (gap ++ opening ++ s) = linksFrom [] (opening ++ s) := by
    rw [List.append_assoc, linksFrom_gap hgap]
  induction h with
  | @bracket gap hgap =>
    -- the bracket at the end and the first one of the link open a link together
    have htext : gap ++ ['['] ++ (opening ++ body ++ closing ++ rest) =
        gap ++ opening ++ ([] ++ '[' :: body ++ closing ++ rest) := by simp
    have hnil : linksFrom [] (gap ++ ['[']) = [] := by
      rw [linksFrom_gap hgap, linksFrom_step]
      rfl
    have hinner : ¬closing <:+: [] ++ '[' :: body ++ [']'] :=
      not_closing_infix_append (by simp) hbody
    rw [htext, hgapOnly hgap, linksFrom_link hinner, target?_append, hnil, List.nil_append]
  | @brackets gap left hgap hleft =>
    -- the open link ends at the closing brackets of the next one
    have htext : gap ++ opening ++ left ++ (opening ++ body ++ closing ++ rest) =
        gap ++ opening ++ (left ++ '[' :: ('[' :: body) ++ closing ++ rest) := by simp
    have hinner : ¬closing <:+: left ++ '[' :: ('[' :: body) ++ [']'] :=
      not_closing_infix_append hleft (by simp [hbody])
    rw [htext, hgapOnly hgap, linksFrom_link hinner, target?_append, hgapOnly hgap,
      linksFrom_open hleft, List.nil_append]
  | @link gap inner tail left hgap hinner htail ih =>
    have htext : gap ++ opening ++ (inner ++ closing ++ tail) ++
        (opening ++ body ++ closing ++ rest) = gap ++ opening ++
          (inner ++ closing ++ (tail ++ (opening ++ body ++ closing ++ rest))) := by
      simp only [List.append_assoc]
    rw [htext, hgapOnly hgap, linksFrom_link hinner, ih, hgapOnly hgap, linksFrom_link hinner]
    simp only [List.append_assoc]

/-! ## Written links -/

theorem linksFrom_link_text (link : Link) (rest : List Char) :
    linksFrom [] (link.text.toList ++ rest) = link.target.toList :: linksFrom [] rest := by
  have hbody := not_closing_infix link.bracket_not_mem_body.2
  rw [link.toList_text, List.append_assoc, List.append_assoc, ← List.append_assoc link.body,
    linksFrom_link hbody, link.target?_body]
  rfl

/-- A link is found at its place if the text before it has closed all links. If that text leaves
one open, it takes the written link in: what is found then is the target of the open one, if that
goes on to an alias. Every text does one or the other. -/
theorem wikilinks_around (before after : String) (link : Link) :
    (Closed before.toList →
      wikilinks (before ++ link.text ++ after) =
        wikilinks before ++ link.target :: wikilinks after) ∧
    (∀ left, LeavesOpen before.toList left →
      wikilinks (before ++ link.text ++ after) =
        wikilinks before ++ (aliased? left).toList.map String.ofList ++ wikilinks after) ∧
    (Closed before.toList ↔ ¬∃ left, LeavesOpen before.toList left) := by
  have htext : (before ++ link.text ++ after).toList =
      before.toList ++ (link.text.toList ++ after.toList) := by
    rw [String.toList_append, String.toList_append, List.append_assoc]
  refine ⟨fun hclosed => ?_, fun left hopen => ?_, closed_iff⟩
  · rw [wikilinks, htext, linksFrom_append_of_closed hclosed, linksFrom_link_text, List.map_append,
      List.map_cons, String.ofList_toList]
    rfl
  · rw [wikilinks, htext, link.toList_text,
      linksFrom_append_of_leavesOpen hopen link.bracket_not_mem_body.2, List.map_append,
      List.map_append]
    rfl

/-- A link to a note, with an alias. -/
def noteLink : Link where
  target := "Note"
  alias? := some "my note"
  target_ne := by decide
  noMarks := by decide
  noBrackets := by decide

theorem wikilinks_around_of_note :
    Closed "a [b] [[c]] ".toList ∧
      wikilinks ("a [b] [[c]] " ++ noteLink.text ++ "[[d]]") = ["c", "Note", "d"] ∧
      LeavesOpen "see [[a|b ".toList "a|b ".toList ∧
      wikilinks ("see [[a|b " ++ noteLink.text ++ "[[d]]") = ["a", "d"] := by
  have hclosed : Closed ("a [b] ".toList ++ opening ++ ("c".toList ++ closing ++ " ".toList)) :=
    .link (by decide) (by decide) (.gap (by decide))
  have hopen : LeavesOpen ("see ".toList ++ opening ++ "a|b ".toList) "a|b ".toList :=
    .brackets (by decide) (by decide)
  refine ⟨hclosed, ?_, hopen, ?_⟩
  · rw [(wikilinks_around "a [b] [[c]] " "[[d]]" noteLink).1 hclosed]
    cbv
  · rw [(wikilinks_around "see [[a|b " "[[d]]" noteLink).2.1 _ hopen]
    cbv

/-- Brackets that nothing closes hide the link behind them, and may make a link of their own. -/
theorem not_every_link_found :
    wikilinks "[[broken [[Note|my note]]" = [] ∧ wikilinks "[[a|b [[Note|my note]]" = ["a"] ∧
      ¬∀ (before after : String) (link : Link),
        link.target ∈ wikilinks (before ++ link.text ++ after) := by
  have hbroken : wikilinks "[[broken [[Note|my note]]" = [] := by cbv
  refine ⟨hbroken, by cbv, fun h => ?_⟩
  have hfound := h "[[broken " "" noteLink
  have htext : "[[broken " ++ noteLink.text ++ "" = "[[broken [[Note|my note]]" := by decide +kernel
  rw [htext, hbroken] at hfound
  exact absurd hfound List.not_mem_nil

end CorpusQuery.Markdown
