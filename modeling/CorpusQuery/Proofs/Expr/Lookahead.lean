import CorpusQuery.Proofs.Expr.Parsing

/-!
# Looking one token ahead

A reader decides by what it has taken and by the next token. So it takes the same from any tokens
that go on with the same token, and where it fails at a token it fails whatever comes after that
token. What stands before the token can be completed, and so can all tokens if the reader fails at
their end. `Predictive` says this of a reader, for lists of at most so many tokens, as a factor
recurses on their number. It is proved here for paths, arguments and calls.
-/

namespace CorpusQuery.Expr

open Token (Kind)

/-! ## Predictive readers -/

section Predictive

variable {α β γ δ : Type} {n : Nat} {form : List Kind → α → Prop} {form' : List Kind → β → Prop}

/-- The tokens are a beginning of what has the form. -/
def Viable (form : List Kind → α → Prop) (kinds : List Kind) : Prop :=
  ∃ more a, form (kinds ++ more) a

theorem Viable.after {kinds : List Kind} (h : Viable form kinds) (before : List Kind)
    (hform : ∀ {ts a}, form ts a → ∃ more b, form' (before ++ ts ++ more) b) :
    Viable form' (before ++ kinds) := by
  obtain ⟨more, a, ha⟩ := h
  obtain ⟨others, b, hb⟩ := hform ha
  refine ⟨more ++ others, b, ?_⟩
  rwa [List.append_assoc, ← List.append_assoc kinds, ← List.append_assoc before]

/-- How a reader fails on tokens of which the beginning is viable: at their end, or at one of them,
and then on every list of tokens that starts in the same way up to that token. -/
inductive Refuses (form : List Kind → α → Prop) (reader : List Token → Except Stop γ) :
    List Token → Option Nat → Prop where
  | atEnd {tokens : List Token} (viable : Viable form (tokens.map Token.kind)) :
    Refuses form reader tokens none
  | atToken (before : List Token) {found : Token} (after : List Token)
    (viable : Viable form (before.map Token.kind))
    (refused : ∀ others, ∃ stop, reader (before ++ found :: others) = .error stop) :
    Refuses form reader (before ++ found :: after) (some found.position)

/-- On lists of at most `n` tokens the reader decides by what it has taken and by the next token. -/
structure Predictive (n : Nat) (form : List Kind → α → Prop)
    (reader : List Token → Except Stop (α × List Token)) : Prop where
  takes {tokens rest : List Token} {a : α} (hlength : tokens.length ≤ n)
    (h : reader tokens = .ok (a, rest)) :
    ∃ ts, tokens = ts ++ rest ∧ ∀ others, others.head? = rest.head? →
      reader (ts ++ others) = .ok (a, others)
  refuses {tokens : List Token} {stop : Stop} (hlength : tokens.length ≤ n)
    (h : reader tokens = .error stop) : Refuses form reader tokens stop.position

theorem Predictive.reads {rule : Rule} {reader : Reader} (h : Predictive n (Derives rule) reader)
    (hsound : Sound rule reader) {tokens rest : List Token} {e : Expr} (hlength : tokens.length ≤ n)
    (hread : reader tokens = .ok (e, rest)) :
    ∃ ts, tokens = ts ++ rest ∧ Derives rule (ts.map Token.kind) e ∧
      ∀ others, others.head? = rest.head? → reader (ts ++ others) = .ok (e, others) := by
  obtain ⟨ts, rfl, hmore⟩ := h.takes hlength hread
  obtain ⟨us, heq, hus⟩ := hsound _ _ _ hread
  obtain rfl := List.append_cancel_right heq
  exact ⟨ts, rfl, hus, hmore⟩

theorem head?_append_congr {ts rest others : List Token} (h : others.head? = rest.head?) :
    (ts ++ others).head? = (ts ++ rest).head? := by
  cases ts with
  | nil => exact h
  | cons token ts => rfl

theorem head_ne_of_not_starts {kind : Kind} {tokens : List Token}
    (h : ¬∃ position after, tokens = ⟨kind, position⟩ :: after) :
    ∀ token ∈ tokens.head?, token.kind ≠ kind := by
  rintro ⟨_, position⟩ htoken rfl
  obtain ⟨after, rfl⟩ := List.head?_eq_some_iff.mp htoken
  exact h ⟨position, after, rfl⟩

/-- The failure of a reader is the failure of one that starts with it after some tokens. -/
theorem Refuses.after {next : List Token → Except Stop γ} {reader : List Token → Except Stop δ}
    {tokens : List Token} {place : Option Nat} (h : Refuses form next tokens place)
    (ts : List Token)
    (hform : ∀ kinds, Viable form kinds → Viable form' (ts.map Token.kind ++ kinds))
    (hreader : ∀ others stop, others.head? = tokens.head? → next others = .error stop →
      ∃ stop', reader (ts ++ others) = .error stop') :
    Refuses form' reader (ts ++ tokens) place := by
  cases h with
  | atEnd viable =>
    refine .atEnd ?_
    rw [List.map_append]
    exact hform _ viable
  | @atToken before found after viable refused =>
    rw [← List.append_assoc]
    refine .atToken _ after ?_ fun others => ?_
    · rw [List.map_append]
      exact hform _ viable
    · obtain ⟨stop, hstop⟩ := refused others
      rw [List.append_assoc]
      exact hreader _ stop (head?_append_congr rfl) hstop

end Predictive

/-! ## Paths -/

section Path

variable {n : Nat}

theorem readPath_of_ne_dot {names : List String} {tokens : List Token}
    (h : ∀ token ∈ tokens.head?, token.kind ≠ .dot) :
    readPath names tokens = .ok (names.reverse, tokens) := by
  unfold readPath
  split
  · exact absurd rfl (h _ rfl)
  · exact absurd rfl (h _ rfl)
  · exact absurd rfl (h _ rfl)
  · rfl

/-- The tokens after the first name of a path. -/
def IsPathTail (names : List String) (kinds : List Kind) (path : List String) : Prop :=
  ∃ more, path = names.reverse ++ more ∧ ∀ word, IsPath (.name word :: kinds) (word :: more)

theorem readPath_takes {names : List String} {ts rest others : List Token} {path : List String}
    (h : readPath names (ts ++ rest) = .ok (path, rest)) (hnext : others.head? = rest.head?) :
    readPath names (ts ++ others) = .ok (path, others) := by
  generalize htokens : ts ++ rest = tokens at h
  induction names, tokens using readPath.induct generalizing ts with
  | case1 names dot name position after ih =>
    rw [readPath] at h
    obtain ⟨us, more, rfl, -, -⟩ := readPath_sound h
    obtain rfl : ts = ⟨.dot, dot⟩ :: ⟨.name name, position⟩ :: us :=
      List.append_cancel_right htokens
    rw [List.cons_append, List.cons_append, readPath]
    exact ih rfl h
  | case2 names _ found after hfound =>
    rw [readPath] at h
    · cases h
    · exact hfound
  | case3 names position =>
    rw [readPath] at h
    cases h
  | case4 names tokens hname hfound hlast =>
    rw [readPath] at h
    · cases h
      obtain rfl : ts = [] := List.append_cancel_right htokens
      refine readPath_of_ne_dot ?_
      rw [List.nil_append, hnext]
      refine head_ne_of_not_starts ?_
      rintro ⟨position, tail, rfl⟩
      cases tail with
      | nil => exact hlast position rfl
      | cons found tail => exact hfound position found tail rfl
    all_goals assumption

theorem predictive_readPath (names : List String) :
    Predictive n (IsPathTail names) (readPath names) where
  takes _ h := by
    obtain ⟨ts, more, rfl, -, -⟩ := readPath_sound h
    exact ⟨ts, rfl, fun others hnext => readPath_takes h hnext⟩
  refuses := by
    rintro tokens stop - h
    have hdot : ∀ {names}, Viable (IsPathTail names) [.dot] := fun {names} =>
      ⟨[.name "a"], names.reverse ++ ["a"], ["a"], rfl, fun word => .dot word (.name "a")⟩
    induction names, tokens using readPath.induct with
    | case1 names dot name position after ih =>
      rw [readPath] at h
      refine (ih h).after [⟨.dot, dot⟩, ⟨.name name, position⟩]
        (fun kinds hviable => hviable.after _ ?_) fun others stop' _ hstop => ⟨stop', ?_⟩
      · rintro ts path ⟨more, rfl, hpath⟩
        exact ⟨[], _, name :: more, rfl, fun word => by
          rw [List.append_nil]
          exact .dot word (hpath name)⟩
      · rw [List.cons_append, List.cons_append, List.nil_append, readPath, hstop]
    | case2 names dot found after hfound =>
      rw [readPath] at h
      · cases h
        refine .atToken [⟨.dot, dot⟩] after hdot fun others =>
          ⟨⟨some found.position, .notName found.kind⟩, ?_⟩
        rw [List.cons_append, List.nil_append, readPath]
        exact hfound
      · exact hfound
    | case3 names position =>
      rw [readPath] at h
      cases h
      exact .atEnd hdot
    | case4 names tokens hname hfound hlast =>
      rw [readPath] at h
      · cases h
      all_goals assumption

end Path

/-! ## Arguments -/

section Arguments

variable {n : Nat}

theorem readArgument_takes {ts rest others : List Token} {arg : Arg}
    (h : readArgument (ts ++ rest) = .ok (arg, rest)) (hnext : others.head? = rest.head?) :
    readArgument (ts ++ others) = .ok (arg, others) := by
  generalize htokens : ts ++ rest = tokens at h
  unfold readArgument at h
  split at h
  · cases h
  · next value position after =>
    cases h
    obtain rfl : ts = [⟨.number value, position⟩] := List.append_cancel_right htokens
    rfl
  · next s position after =>
    cases h
    obtain rfl : ts = [⟨.str s, position⟩] := List.append_cancel_right htokens
    rfl
  · next first position after =>
    cases hread : readPath [first] after with
    | error stop =>
      rw [hread] at h
      cases h
    | ok result =>
      obtain ⟨path, rest'⟩ := result
      rw [hread] at h
      cases h
      obtain ⟨us, -, rfl, -, -⟩ := readPath_sound hread
      obtain rfl : ts = ⟨.name first, position⟩ :: us := List.append_cancel_right htokens
      rw [List.cons_append, readArgument, readPath_takes hread hnext]
  · cases h

theorem predictive_readArgument : Predictive n IsArgument readArgument where
  takes _ h := by
    obtain ⟨ts, rfl, -⟩ := readArgument_sound h
    exact ⟨ts, rfl, fun others hnext => readArgument_takes h hnext⟩
  refuses := by
    intro tokens stop hlength h
    have hviable : Viable IsArgument [] := ⟨[.str ""], _, .str ""⟩
    unfold readArgument at h
    split at h
    · cases h
      exact .atEnd hviable
    · cases h
    · cases h
    · next first position after =>
      cases hread : readPath [first] after with
      | ok result =>
        rw [hread] at h
        cases h
      | error stop' =>
        rw [hread] at h
        cases h
        have htail := (predictive_readPath [first]).refuses (Nat.le_of_succ_le hlength) hread
        refine htail.after [⟨.name first, position⟩]
          (fun kinds hviable => hviable.after _ ?_) fun others stop' _ hstop => ⟨stop', ?_⟩
        · rintro ts path ⟨more, rfl, hpath⟩
          exact ⟨[], _, by
            rw [List.append_nil]
            exact .path (hpath first)⟩
        · rw [List.cons_append, List.nil_append, readArgument, hstop]
    · next found after _ _ _ =>
      cases h
      refine .atToken [] after hviable fun others =>
        ⟨⟨some found.position, .notArgument found.kind⟩, ?_⟩
      rw [List.nil_append, readArgument]
      all_goals assumption

/-- One argument or more and the closing parenthesis. -/
def IsArgumentList (kinds : List Kind) (args : List Arg) : Prop :=
  ∃ us, kinds = us ++ [.closing] ∧ IsArguments us args

theorem Viable.argumentList {kinds : List Kind} (h : Viable IsArgument kinds) :
    Viable IsArgumentList kinds :=
  h.after [] fun {ts arg} harg => ⟨[.closing], [arg], ts, rfl, .last harg⟩

theorem close_error {tokens : List Token} {stop : Stop} (h : close tokens = .error stop) :
    tokens = [] ∧ stop.position = none ∨
      ∃ found after, tokens = found :: after ∧ found.kind ≠ .closing ∧
        stop.position = some found.position := by
  unfold close at h
  split at h
  · cases h
  · next found after hne =>
    cases h
    exact .inr ⟨found, after, rfl, fun hclosing => hne found.position (by rw [← hclosing]), rfl⟩
  · cases h
    exact .inl ⟨rfl, rfl⟩

theorem close_of_ne {found : Token} {after : List Token} (h : found.kind ≠ .closing) :
    close (found :: after) =
      .error ⟨some found.position, .expected .closing (some found.kind)⟩ := by
  rw [close]
  rintro position rfl
  exact h rfl

/-- What stops in front of the closing parenthesis of something that is complete but for it. -/
theorem Refuses.unclosed {α β γ : Type} {form : List Kind → α → Prop}
    {form' : List Kind → β → Prop} {reader : List Token → Except Stop γ} {ts rest : List Token}
    {a : α} {stop : Stop}
    (hclose : close rest = .error stop) (hform : form (ts.map Token.kind) a)
    (hclosed : ∀ {kinds a}, form kinds a → ∃ b, form' (kinds ++ [.closing]) b)
    (hreader : ∀ others stop, others.head? = rest.head? → close others = .error stop →
      ∃ stop', reader (ts ++ others) = .error stop') :
    Refuses form' reader (ts ++ rest) stop.position := by
  have hviable : Viable form' (ts.map Token.kind) := ⟨[.closing], hclosed hform⟩
  obtain ⟨rfl, hplace⟩ | ⟨found, after, rfl, hne, hplace⟩ := close_error hclose
  · rw [hplace, List.append_nil]
    exact .atEnd hviable
  · rw [hplace]
    exact .atToken ts after hviable fun others => hreader _ _ rfl (close_of_ne hne)

theorem readArguments_bound {bound other : Nat} {tokens : List Token}
    (hbound : tokens.length ≤ bound) (hother : tokens.length ≤ other) :
    readArguments bound tokens = readArguments other tokens := by
  induction bound generalizing other tokens with
  | zero =>
    rw [List.length_eq_zero_iff.mp (Nat.le_zero.mp hbound)]
    cases other <;> rfl
  | succ bound ih =>
    cases other with
    | zero =>
      rw [List.length_eq_zero_iff.mp (Nat.le_zero.mp hother)]
      rfl
    | succ other =>
      rw [readArguments, readArguments]
      cases hread : readArgument tokens with
      | error stop => rfl
      | ok result =>
        obtain ⟨arg, rest⟩ := result
        obtain ⟨ts, rfl, -⟩ := readArgument_sound hread
        split
        · rfl
        · next rest heq =>
          cases heq
          rw [List.length_append, List.length_cons] at hbound hother
          rw [@ih other rest (by omega) (by omega)]
        · rfl

/-- The arguments start with the argument at the start. -/
theorem readArguments_of_error {tokens : List Token} {stop : Stop}
    (h : readArgument tokens = .error stop) :
    readArguments tokens.length tokens = .error stop := by
  cases tokens with
  | nil =>
    cases h
    rfl
  | cons token tokens => rw [List.length_cons, readArguments, h]

theorem readArguments_of_comma {ts rest : List Token} {arg : Arg} {position : Nat}
    (h : readArgument (ts ++ ⟨.comma, position⟩ :: rest) =
      .ok (arg, ⟨.comma, position⟩ :: rest)) :
    readArguments (ts ++ ⟨.comma, position⟩ :: rest).length (ts ++ ⟨.comma, position⟩ :: rest) =
      (readArguments rest.length rest).map fun (args, rest) => (arg :: args, rest) := by
  have hbound : rest.length ≤ ts.length + rest.length := Nat.le_add_left _ _
  rw [List.length_append, List.length_cons, ← Nat.add_assoc, readArguments, h]
  dsimp only
  rw [readArguments_bound hbound (Nat.le_refl _)]
  cases readArguments rest.length rest <;> rfl

theorem readArguments_of_last {tokens rest : List Token} {arg : Arg}
    (h : readArgument tokens = .ok (arg, rest))
    (hlast : ∀ token ∈ rest.head?, token.kind ≠ .comma) :
    readArguments tokens.length tokens = (close rest).map fun rest => ([arg], rest) := by
  cases tokens with
  | nil => cases h
  | cons token tokens =>
    rw [List.length_cons, readArguments, h]
    split
    · next heq => cases heq
    · next heq =>
      cases heq
      exact absurd rfl (hlast _ rfl)
    · next heq =>
      cases heq
      rfl

theorem Viable.argumentsAfter {us kinds : List Kind} {arg : Arg} (hus : IsArgument us arg)
    (h : Viable IsArgumentList kinds) : Viable IsArgumentList (us ++ .comma :: kinds) := by
  obtain ⟨more, args, vs, heq, hargs⟩ := h
  refine ⟨more, arg :: args, us ++ .comma :: vs, ?_, .more hus hargs⟩
  rw [List.append_assoc, List.cons_append, heq, List.append_assoc, List.cons_append]

theorem refuses_readArguments {tokens : List Token} {stop : Stop}
    (h : readArguments tokens.length tokens = .error stop) :
    Refuses IsArgumentList (fun tokens => readArguments tokens.length tokens) tokens
      stop.position := by
  generalize hsize : tokens.length = size
  induction size using Nat.strongRecOn generalizing tokens with
  | ind size ih =>
    cases hread : readArgument tokens with
    | error stop' =>
      rw [readArguments_of_error hread] at h
      cases h
      exact (predictive_readArgument.refuses (Nat.le_refl _) hread).after []
        (fun kinds hviable => hviable.argumentList) fun others stop' _ hstop =>
          ⟨stop', readArguments_of_error hstop⟩
    | ok result =>
      obtain ⟨arg, rest⟩ := result
      obtain ⟨us, rfl, hus⟩ := readArgument_sound hread
      by_cases hcomma : ∃ position after, rest = ⟨.comma, position⟩ :: after
      · obtain ⟨position, after, rfl⟩ := hcomma
        rw [readArguments_of_comma hread] at h
        cases hmore : readArguments after.length after with
        | ok result =>
          rw [hmore] at h
          cases h
        | error stop' =>
          rw [hmore] at h
          cases h
          rw [List.append_cons]
          rw [List.length_append, List.length_cons] at hsize
          refine (ih after.length (by omega) hmore rfl).after _ (fun kinds hviable => ?_)
            fun others stop' _ hstop => ⟨stop', ?_⟩
          · rw [List.map_append, List.append_assoc]
            exact hviable.argumentsAfter hus
          · have hfirst : readArgument (us ++ ⟨.comma, position⟩ :: others) = .ok (arg, _) :=
              readArgument_takes hread rfl
            rw [List.append_assoc, List.singleton_append, readArguments_of_comma hfirst, hstop]
            rfl
      · have hlast := head_ne_of_not_starts hcomma
        rw [readArguments_of_last hread hlast] at h
        cases hclose : close rest with
        | ok rest' =>
          rw [hclose] at h
          cases h
        | error stop' =>
          rw [hclose] at h
          cases h
          refine .unclosed hclose hus (fun {kinds arg} harg => ⟨[arg], kinds, rfl, .last harg⟩)
            fun others stop' hnext hstop => ⟨stop', ?_⟩
          rw [readArguments_of_last (readArgument_takes hread hnext) (hnext ▸ hlast), hstop]
          rfl

theorem predictive_readArguments :
    Predictive n IsArgumentList fun tokens => readArguments tokens.length tokens where
  takes _ h := by
    obtain ⟨ts, position, rfl, hargs⟩ := readArguments_sound h
    refine ⟨ts ++ [⟨.closing, position⟩], List.append_cons _ _ _, fun others _ => ?_⟩
    rw [List.append_assoc, List.singleton_append]
    exact readArguments_complete hargs rfl (Nat.le_refl _)
  refuses _ := refuses_readArguments

end Arguments

/-! ## Calls -/

section Call

variable {n : Nat} {callee : List Kind} {path : List String}

/-- The tokens after the opening parenthesis of a call. -/
def IsCallTail (callee kinds : List Kind) (e : Expr) : Prop :=
  Derives .factor (callee ++ .opening :: kinds) e

theorem readCall_of_ne {tokens : List Token} (h : ∀ token ∈ tokens.head?, token.kind ≠ .closing) :
    readCall path tokens =
      (readArguments tokens.length tokens).map fun (args, rest) =>
        (.call path.dropLast (path.getLastD "") args, rest) := by
  unfold readCall
  split
  · exact absurd rfl (h _ rfl)
  · rfl

theorem predictive_readCall (hcallee : IsPath callee path) :
    Predictive n (IsCallTail callee) (readCall path) where
  takes := by
    intro tokens rest e hlength h
    by_cases hclosing : ∃ position after, tokens = ⟨.closing, position⟩ :: after
    · obtain ⟨position, after, rfl⟩ := hclosing
      cases h
      exact ⟨[⟨.closing, position⟩], rfl, fun others _ => rfl⟩
    · have hne := head_ne_of_not_starts hclosing
      rw [readCall_of_ne hne] at h
      cases hread : readArguments tokens.length tokens with
      | error stop =>
        rw [hread] at h
        cases h
      | ok result =>
        obtain ⟨args, rest'⟩ := result
        rw [hread] at h
        cases h
        obtain ⟨ts, rfl, hmore⟩ := predictive_readArguments.takes hlength hread
        refine ⟨ts, rfl, fun others hnext => ?_⟩
        rw [readCall_of_ne (head?_append_congr hnext ▸ hne), hmore others hnext]
        rfl
  refuses := by
    intro tokens stop hlength h
    by_cases hclosing : ∃ position after, tokens = ⟨.closing, position⟩ :: after
    · obtain ⟨position, after, rfl⟩ := hclosing
      cases h
    · have hne := head_ne_of_not_starts hclosing
      rw [readCall_of_ne hne] at h
      cases hread : readArguments tokens.length tokens with
      | ok result =>
        rw [hread] at h
        cases h
      | error stop' =>
        rw [hread] at h
        cases h
        refine (refuses_readArguments hread).after [] (fun kinds hviable => hviable.after [] ?_)
          fun others stop' hnext hstop => ⟨stop', ?_⟩
        · rintro kinds args ⟨us, rfl, hargs⟩
          refine ⟨[], .call path.dropLast (path.getLastD "") args, ?_⟩
          rw [List.append_nil]
          exact .call ((path_eq_receiver_method hcallee.ne_nil).symm ▸ hcallee) hargs
        · rw [List.nil_append, readCall_of_ne (hnext ▸ hne), hstop]
          rfl

end Call

end CorpusQuery.Expr
