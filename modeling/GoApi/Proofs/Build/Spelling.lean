import GoApi.Proofs.Build.Token

/-!
# What tokens say about their text

A text is read from its front, where a blank, a token or something else stands (`front_or_stray`).  So the
tokens of a text are the text without its white space, two tags that follow each other stand apart in it, and a
text that cannot be read has a first character that starts no token:

    tokenize text = .error c ↔ ∃ before tokens after, text = before ++ c :: after ∧
      tokenize before = .ok tokens ∧ isAsciiBlank c = false ∧ ¬StartsToken (c :: after)
-/

namespace GoApi.Build

open Text

/-! ## The front of a text -/

/-- What a scan takes off the front of a text: a blank, or a token, which is noted. -/
inductive Front : List Char → Option Token → List Char → Prop
  | blank {c : Char} (hc : isAsciiBlank c = true) (after : List Char) : Front [c] none after
  | mark {token : Token} (hmark : token ∈ marks) (after : List Char) : Front token.spelling (some token) after
  | tag {name after : List Char} (hne : name ≠ []) (hname : ∀ c ∈ name, isTagChar c = true)
      (hend : EndsRun isTagChar after) : Front name (some (.tag name)) after

theorem Front.ne_nil {taken after : List Char} {token? : Option Token} (h : Front taken token? after) :
    taken ≠ [] := by
  cases h with
  | blank => simp
  | mark hmark =>
    rintro hnil
    simp only [marks, List.mem_cons, List.not_mem_nil, or_false] at hmark
    rcases hmark with rfl | rfl | rfl | rfl | rfl <;> cases hnil
  | tag hne => exact hne

theorem cons_eq_map (token : Token) (x : Except Char (List Token)) :
    (do return token :: (← x)) = x.map (token :: ·) := by
  cases x <;> rfl

/-- What is taken off the front is the first that `tokenize` gives. -/
theorem Front.tokenize {taken after : List Char} {token? : Option Token} (h : Front taken token? after) :
    tokenize (taken ++ after) = (tokenize after).map (token?.toList ++ ·) := by
  cases h with
  | blank hc =>
    rw [List.singleton_append, tokenize_blank hc]
    cases Build.tokenize after <;> rfl
  | mark hmark => exact (tokenize_mark hmark after).trans (cons_eq_map _ _)
  | tag hne hname hend => exact (tokenize_tag hne hname hend).trans (cons_eq_map _ _)

/-- A token as it can be written. -/
def Token.Formed : Token → Prop
  | .tag name => name ≠ [] ∧ ∀ c ∈ name, isTagChar c = true
  | _ => True

/-- Whether a token stands at the front of a text. -/
def StartsToken (text : List Char) : Prop := ∃ token : Token, token.Formed ∧ token.spelling <+: text

/-- The tests that a character passes if no token starts with it. -/
theorem of_not_startsToken {c : Char} {rest : List Char} (h : ¬StartsToken (c :: rest)) :
    isTagChar c = false ∧ c ≠ '!' ∧ c ≠ '(' ∧ c ≠ ')' ∧
      ¬Token.and.spelling <+: c :: rest ∧ ¬Token.or.spelling <+: c :: rest := by
  refine ⟨?_, ?_, ?_, ?_, fun hpre => h ⟨.and, trivial, hpre⟩, fun hpre => h ⟨.or, trivial, hpre⟩⟩
  · rw [Bool.eq_false_iff]
    intro hc
    exact h ⟨.tag [c], ⟨by simp, by simpa using hc⟩, rest, rfl⟩
  · rintro rfl
    exact h ⟨.not, trivial, rest, rfl⟩
  · rintro rfl
    exact h ⟨.opening, trivial, rest, rfl⟩
  · rintro rfl
    exact h ⟨.closing, trivial, rest, rfl⟩

/-- A text starts with a blank or a token, or it starts with a character that is neither. -/
theorem front_or_stray (c : Char) (rest : List Char) :
    (∃ taken token? after, Front taken token? after ∧ c :: rest = taken ++ after) ∨
      isAsciiBlank c = false ∧ ¬StartsToken (c :: rest) := by
  by_cases hblank : isAsciiBlank c = true
  · exact .inl ⟨[c], none, rest, .blank hblank rest, rfl⟩
  by_cases hstart : StartsToken (c :: rest)
  · refine .inl ?_
    obtain ⟨token, hformed, after, htext⟩ := hstart
    by_cases hmark : token ∈ marks
    · exact ⟨token.spelling, some token, after, .mark hmark after, htext.symm⟩
    · cases token with
      | tag name =>
        obtain ⟨d, name, rfl⟩ := List.exists_cons_of_ne_nil hformed.1
        obtain ⟨rfl, -⟩ := List.cons.inj htext
        have htag : ∀ e ∈ d :: rest.takeWhile isTagChar, isTagChar e = true :=
          List.forall_mem_cons.2 ⟨hformed.2 d (by simp), List.all_eq_true.1 List.all_takeWhile⟩
        refine ⟨_, _, _, .tag (List.cons_ne_nil _ _) htag (endsRun_dropWhile isTagChar rest), ?_⟩
        rw [List.cons_append, List.takeWhile_append_dropWhile]
      | _ => exact absurd (by decide) hmark
  · exact .inr ⟨by simpa using hblank, hstart⟩

/-- The first character of a text that starts with no token is the one that is reported. -/
theorem tokenize_stray {c : Char} {rest : List Char} (hblank : isAsciiBlank c = false)
    (h : ¬StartsToken (c :: rest)) : tokenize (c :: rest) = .error c := by
  obtain ⟨htag, hnot, hopening, hclosing, hand, hor⟩ := of_not_startsToken h
  rw [tokenize.eq_def]
  simp only [hblank, hnot, hopening, hclosing, htag, Bool.false_eq_true, if_false]
  split
  · next after => exact absurd ⟨after, rfl⟩ hand
  · next after => exact absurd ⟨after, rfl⟩ hor
  · rfl

/-! ## What the tokens say about the text -/

theorem Spells.formed {tokens : List Token} {text : List Char} (h : Spells tokens text) :
    ∀ token ∈ tokens, token.Formed := by
  induction h with
  | done => simp
  | blank _ _ ih => exact ih
  | mark hmark _ ih =>
    refine List.forall_mem_cons.2 ⟨?_, ih⟩
    simp only [marks, List.mem_cons, List.not_mem_nil, or_false] at hmark
    rcases hmark with rfl | rfl | rfl | rfl | rfl <;> trivial
  | tag hne hname _ _ ih => exact List.forall_mem_cons.2 ⟨⟨hne, hname⟩, ih⟩

/-- No token has white space in it. -/
theorem Token.Formed.filter_spelling {token : Token} (h : token.Formed) :
    token.spelling.filter (fun c => !isAsciiBlank c) = token.spelling := by
  cases token with
  | tag name =>
    rw [List.filter_eq_self]
    intro c hc
    simp [isAsciiBlank_of_isTagChar (h.2 c hc)]
  | _ => rfl

/-- The spellings of the tokens, put together, are the text without its white space. -/
theorem Spells.spelling_eq {tokens : List Token} {text : List Char} (h : Spells tokens text) :
    tokens.flatMap Token.spelling = text.filter fun c => !isAsciiBlank c := by
  have hformed := h.formed
  induction h with
  | done => rfl
  | blank hc _ ih => rw [List.filter_cons_of_neg (by simp [hc]), ih hformed]
  | mark _ _ ih | tag _ _ _ _ ih =>
    obtain ⟨htoken, hrest⟩ := List.forall_mem_cons.1 hformed
    rw [List.flatMap_cons, List.filter_append, ih hrest]
    exact congrArg (· ++ _) htoken.filter_spelling.symm

/-- A text can be cut between any two of its tokens. -/
theorem Spells.split {before after : List Token} {text : List Char} (h : Spells (before ++ after) text) :
    ∃ front back, text = front ++ back ∧ Spells before front ∧ Spells after back := by
  generalize htokens : before ++ after = tokens at h
  induction h generalizing before with
  | done =>
    obtain ⟨rfl, rfl⟩ := List.append_eq_nil_iff.1 htokens
    exact ⟨[], [], rfl, .done, .done⟩
  | blank hc _ ih =>
    obtain ⟨front, back, rfl, hfront, hback⟩ := ih htokens
    exact ⟨_ :: front, back, rfl, .blank hc hfront, hback⟩
  | mark hmark h ih =>
    cases before with
    | nil =>
      obtain rfl : after = _ := htokens
      exact ⟨[], _, rfl, .done, .mark hmark h⟩
    | cons token before =>
      obtain ⟨rfl, hmore⟩ := List.cons.inj htokens
      obtain ⟨front, back, rfl, hfront, hback⟩ := ih hmore
      exact ⟨token.spelling ++ front, back, (List.append_assoc ..).symm, .mark hmark hfront, hback⟩
  | tag hne hname hend h ih =>
    cases before with
    | nil =>
      obtain rfl : after = _ := htokens
      exact ⟨[], _, rfl, .done, .tag hne hname hend h⟩
    | cons token before =>
      obtain ⟨rfl, hmore⟩ := List.cons.inj htokens
      obtain ⟨front, back, rfl, hfront, hback⟩ := ih hmore
      exact ⟨_ ++ front, back, (List.append_assoc ..).symm, .tag hne hname (endsRun_of_append hend) hfront, hback⟩

/-- Where a tag is due there may be white space before it, and it ends where its characters do. -/
theorem Spells.tag_inv {name : List Char} {tokens : List Token} {text : List Char}
    (h : Spells (.tag name :: tokens) text) :
    ∃ gap after, text = gap ++ (name ++ after) ∧ (∀ c ∈ gap, isAsciiBlank c = true) ∧
      EndsRun isTagChar after ∧ Spells tokens after := by
  generalize htokens : Token.tag name :: tokens = all at h
  induction h with
  | done => cases htokens
  | @blank c _ _ hc _ ih =>
    obtain ⟨gap, after, rfl, hgap, hend, hrest⟩ := ih htokens
    exact ⟨c :: gap, after, rfl, List.forall_mem_cons.2 ⟨hc, hgap⟩, hend, hrest⟩
  | mark hmark =>
    obtain ⟨rfl, -⟩ := List.cons.inj htokens
    simp [marks] at hmark
  | tag _ _ hend h _ =>
    obtain ⟨hname, rfl⟩ := List.cons.inj htokens
    obtain rfl := Token.tag.inj hname
    exact ⟨[], _, rfl, by simp, hend, h⟩

theorem spells_gap {gap : List Char} (h : ∀ c ∈ gap, isAsciiBlank c = true) : Spells [] gap := by
  induction gap with
  | nil => exact .done
  | cons c gap ih =>
    obtain ⟨hc, hgap⟩ := List.forall_mem_cons.1 h
    exact .blank hc (ih hgap)

theorem endsRun_gap {gap : List Char} (h : ∀ c ∈ gap, isAsciiBlank c = true) : EndsRun isTagChar gap := by
  rintro c t rfl
  rw [Bool.eq_false_iff]
  intro hc
  have hblank := h c (by simp)
  rw [isAsciiBlank_of_isTagChar hc] at hblank
  cases hblank

/-- Between two tags that follow each other there is white space, and nothing else. -/
theorem Spells.tags_apart {before after : List Token} {a b : List Char} {text : List Char}
    (h : Spells (before ++ .tag a :: .tag b :: after) text) :
    ∃ front gap back, text = front ++ (a ++ (gap ++ (b ++ back))) ∧ gap ≠ [] ∧
      (∀ c ∈ gap, isAsciiBlank c = true) ∧ Spells before front ∧ Spells after back := by
  have hb : (Token.tag b).Formed := h.formed _ (by simp)
  obtain ⟨front, rest, rfl, hfront, hrest⟩ := h.split
  obtain ⟨gap₁, rest, rfl, hgap₁, hend, hrest⟩ := hrest.tag_inv
  obtain ⟨gap, back, rfl, hgap, -, hback⟩ := hrest.tag_inv
  refine ⟨front ++ gap₁, gap, back, by simp, ?_, hgap, ?_, hback⟩
  · rintro rfl
    obtain ⟨c, b, rfl⟩ := List.exists_cons_of_ne_nil hb.1
    have hc := hend c _ rfl
    rw [hb.2 c (by simp)] at hc
    cases hc
  · have hspells := hfront.append (spells_gap hgap₁) (endsRun_gap hgap₁)
    rwa [List.append_nil] at hspells

/-! ## The character that is reported -/

theorem Front.of_append {taken r s : List Char} {token? : Option Token} (h : Front taken token? (r ++ s)) :
    Front taken token? r := by
  cases h with
  | blank hc => exact .blank hc r
  | mark hmark => exact .mark hmark r
  | tag hne hname hend => exact .tag hne hname (endsRun_of_append hend)

theorem exists_of_tokenize_eq_error {text : List Char} {c : Char} (h : tokenize text = .error c) :
    ∃ before tokens after, text = before ++ c :: after ∧ tokenize before = .ok tokens ∧
      isAsciiBlank c = false ∧ ¬StartsToken (c :: after) := by
  induction hlength : text.length using Nat.strongRecOn generalizing text with
  | _ n ih =>
    cases text with
    | nil =>
      rw [tokenize] at h
      cases h
    | cons d rest =>
      rcases front_or_stray d rest with ⟨taken, token?, after, hfront, htext⟩ | ⟨hblank, hstray⟩
      · have hshorter : after.length < n := by
          have htaken := List.length_pos_iff.2 hfront.ne_nil
          rw [← hlength, htext, List.length_append]
          omega
        have hafter : tokenize after = .error c := by
          rw [htext, hfront.tokenize] at h
          cases hread : tokenize after <;> rw [hread] at h <;> cases h
          rfl
        obtain ⟨before, tokens, rest', rfl, hbefore, hstray⟩ := ih _ hshorter hafter rfl
        refine ⟨taken ++ before, token?.toList ++ tokens, rest', ?_, ?_, hstray⟩
        · rw [htext, List.append_assoc]
        · rw [hfront.of_append.tokenize, hbefore]
          rfl
      · rw [tokenize_stray hblank hstray] at h
        obtain rfl := Except.error.inj h
        exact ⟨[], [], rest, rfl, by rw [tokenize], hblank, hstray⟩

/-- A text that is read to its end can be followed by any other that does not continue a tag. -/
theorem Spells.tokenize_append {tokens : List Token} {text text' : List Char} (h : Spells tokens text)
    (hend : EndsRun isTagChar text') : tokenize (text ++ text') = (tokenize text').map (tokens ++ ·) := by
  induction h with
  | done =>
    rw [List.nil_append]
    cases tokenize text' <;> rfl
  | blank hc _ ih => exact (tokenize_blank hc _).trans ih
  | mark hmark _ ih =>
    rw [List.append_assoc, (Front.mark hmark _).tokenize, ih]
    cases tokenize text' <;> rfl
  | tag hne hname hend' _ ih =>
    rw [List.append_assoc, (Front.tag hne hname (endsRun_append hend' hend)).tokenize, ih]
    cases tokenize text' <;> rfl

/-- The character that is reported is the first one that is no white space and starts no token where one is
due. -/
theorem tokenize_eq_error_iff (text : List Char) (c : Char) :
    tokenize text = .error c ↔ ∃ before tokens after, text = before ++ c :: after ∧ tokenize before = .ok tokens ∧
      isAsciiBlank c = false ∧ ¬StartsToken (c :: after) := by
  refine ⟨exists_of_tokenize_eq_error, ?_⟩
  rintro ⟨before, tokens, after, rfl, hbefore, hblank, hstray⟩
  rw [(spells_of_tokenize hbefore).tokenize_append (endsRun_cons (of_not_startsToken hstray).1),
    tokenize_stray hblank hstray]
  rfl

end GoApi.Build
