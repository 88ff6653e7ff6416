import GoApi.Proofs.Build.Spelling

/-!
# Scanning by byte positions

`tokenize` walks over characters.  A scan of the stored text walks over bytes instead: a `Cursor` holds a byte
position, looks at the byte there, and cuts slices off the text that must start and end between two characters.
-/

namespace GoApi.Build

open Text

/-! ## Slices -/

/-- The text from a byte position on, if the position is between two characters. -/
def sliceFrom? (text : String) (pos : Nat) : Option String :=
  if h : String.Pos.Raw.IsValid text ⟨pos⟩ then some (text.sliceFrom (text.pos ⟨pos⟩ h)).copy else none

/-- The text up to a byte position, if the position is between two characters. -/
def sliceTo? (text : String) (pos : Nat) : Option String :=
  if h : String.Pos.Raw.IsValid text ⟨pos⟩ then some (text.sliceTo (text.pos ⟨pos⟩ h)).copy else none

/-- The number of bytes before the first character that cannot stand in a tag, or of the whole text. -/
def tagBytes (text : String) : Nat :=
  ((text.find? fun c => !isTagChar c).map (·.offset.byteIdx)).getD text.utf8ByteSize

theorem isValid_utf8ByteSize (before after : String) :
    String.Pos.Raw.IsValid (before ++ after) ⟨before.utf8ByteSize⟩ :=
  String.Pos.Raw.isValid_iff_exists_append.2 ⟨before, after, rfl, rfl⟩

theorem sliceFrom?_append (before after : String) :
    sliceFrom? (before ++ after) before.utf8ByteSize = some after := by
  rw [sliceFrom?, dif_pos (isValid_utf8ByteSize before after)]
  exact congrArg some String.Pos.splits_append_rawEndPos.copy_sliceFrom_eq

theorem sliceTo?_append (before after : String) :
    sliceTo? (before ++ after) before.utf8ByteSize = some before := by
  rw [sliceTo?, dif_pos (isValid_utf8ByteSize before after)]
  exact congrArg some String.Pos.splits_append_rawEndPos.copy_sliceTo_eq

/-- The characters of a tag are counted up to the first other one. -/
theorem tagBytes_append {name after : String} (hname : ∀ c ∈ name.toList, isTagChar c = true)
    (hend : EndsRun isTagChar after.toList) : tagBytes (name ++ after) = name.utf8ByteSize := by
  unfold tagBytes
  cases hafter : after.toList with
  | nil =>
    obtain rfl : after = "" := String.toList_eq_nil_iff.1 hafter
    have hnone : ((name ++ "").find? fun c => !isTagChar c) = none := by
      rw [Option.eq_none_iff_forall_ne_some]
      intro pos hpos
      obtain ⟨t, c, u, hsplits, hc, -⟩ := String.find?_bool_eq_some_iff_splits.1 hpos
      have hmem : c ∈ (name ++ "").toList := by
        rw [hsplits.eq_append]
        simp
      have htag := hname c (by simpa using hmem)
      simp [htag] at hc
    rw [hnone]
    simp
  | cons c u =>
    have hc : isTagChar c = false := hend c u hafter
    have hsome : ((name ++ after).find? fun c => !isTagChar c) =
        some ((name ++ after).pos name.rawEndPos (isValid_utf8ByteSize name after)) := by
      rw [String.find?_bool_eq_some_iff_splits]
      refine ⟨name, c, String.ofList u, ?_, by simp [hc], fun d hd => by simp [hname d hd]⟩
      have hcons : String.singleton c ++ String.ofList u = after := by
        rw [← String.toList_inj, String.toList_append, hafter]
        simp
      rw [hcons]
      exact String.Pos.splits_append_rawEndPos
    rw [hsome]
    rfl

/-! ## Bytes -/

/-- An ASCII character is its own first byte. -/
theorem ofUInt8_firstByte {c : Char} {b : UInt8} (hb : (String.utf8EncodeChar c).head? = some b)
    (hc : c.toNat < 128) : Char.ofUInt8 b = c := by
  have hval : c.val.toNat ≤ 127 := Nat.le_of_lt_succ hc
  rw [String.utf8EncodeChar, if_pos hval] at hb
  obtain rfl := Option.some.inj hb
  apply Char.ext
  rw [← UInt32.toNat_inj]
  change (UInt8.ofNat c.val.toNat).toUInt32.toNat = c.val.toNat
  rw [UInt8.toNat_toUInt32, UInt8.toNat_ofNat']
  omega

/-- The first byte of any other character is none of an ASCII character. -/
theorem le_firstByte {c : Char} {b : UInt8} (hb : (String.utf8EncodeChar c).head? = some b) (hc : 128 ≤ c.toNat) :
    128 ≤ b.toNat := by
  have hval : ¬c.val.toNat ≤ 127 := Nat.not_le.2 hc
  rw [String.utf8EncodeChar, if_neg hval] at hb
  split at hb
  · obtain rfl := Option.some.inj hb
    rw [UInt8.toNat_ofNat']
    omega
  · split at hb
    · obtain rfl := Option.some.inj hb
      rw [UInt8.toNat_ofNat']
      omega
    · obtain rfl := Option.some.inj hb
      rw [UInt8.toNat_ofNat']
      omega

/-- The first byte of a character, taken for a character, is in a class of ASCII characters exactly if the
character is. -/
theorem class_firstByte {p : Char → Bool} (hascii : ∀ c, p c = true → c.toNat < 128) {c : Char} {b : UInt8}
    (hb : (String.utf8EncodeChar c).head? = some b) : p (Char.ofUInt8 b) = p c := by
  have hfalse : ∀ d : Char, 128 ≤ d.toNat → p d = false := by
    intro d hd
    rw [Bool.eq_false_iff]
    intro h
    exact absurd (hascii d h) (Nat.not_lt.2 hd)
  by_cases hc : c.toNat < 128
  · rw [ofUInt8_firstByte hb hc]
  · have hlarge : 128 ≤ c.toNat := Nat.not_lt.1 hc
    rw [hfalse c hlarge, hfalse (Char.ofUInt8 b) (le_firstByte hb hlarge)]

/-- The byte at a boundary is the first byte of the character behind it. -/
theorem byte_append (before : String) (c : Char) (rest : List Char)
    (h : (⟨before.utf8ByteSize⟩ : String.Pos.Raw) < (before ++ String.ofList (c :: rest)).rawEndPos) :
    (String.utf8EncodeChar c).head? =
      some ((before ++ String.ofList (c :: rest)).getUTF8Byte ⟨before.utf8ByteSize⟩ h) := by
  have hbytes : (before ++ String.ofList (c :: rest)).toByteArray.data.toList =
      before.toByteArray.data.toList ++ (String.utf8EncodeChar c ++ rest.utf8Encode.data.toList) := by
    rw [String.toByteArray_append, String.toByteArray_ofList, List.utf8Encode_cons, List.utf8Encode_singleton]
    simp
  unfold String.getUTF8Byte
  rw [ByteArray.getElem_eq_getElem_data, ← Array.getElem_toList, ← List.getElem?_eq_getElem, hbytes,
    List.getElem?_append_right (by simp)]
  simp only [Array.length_toList, ByteArray.size_data, String.size_toByteArray, Nat.sub_self]
  rw [← List.head?_eq_getElem?, List.head?_append_of_ne_nil _ String.utf8EncodeChar_ne_nil]

/-! ## The scan -/

/-- Where a scan stands: a byte position, and the tokens found before it. -/
structure Cursor where
  pos : Nat := 0
  tokens : List Token := []

/-- What one turn of the scan comes to. -/
inductive Turn where
  /-- A slice would start or end inside a character. -/
  | cut
  /-- The scan goes on. -/
  | more (next : Cursor)
  /-- The scan ends: with all tokens, or at a character that starts none. -/
  | done (result : Except (Option Char) (List Token))

namespace Cursor

/-- Note a token of the given number of bytes and go on behind it. -/
def push (c : Cursor) (token : Token) (bytes : Nat) : Cursor :=
  ⟨c.pos + bytes, c.tokens ++ [token]⟩

/-- What follows from the byte at the position, taken for a character, and the text from there on. -/
def look (c : Cursor) (b : Char) (rest : String) : Turn :=
  if isAsciiBlank b then .more { c with pos := c.pos + 1 }
  else if rest.startsWith "&&" then .more (c.push .and 2)
  else if rest.startsWith "||" then .more (c.push .or 2)
  else if b = '!' then .more (c.push .not 1)
  else if b = '(' then .more (c.push .opening 1)
  else if b = ')' then .more (c.push .closing 1)
  else if isTagChar b then
    match sliceTo? rest (tagBytes rest) with
    | none => .cut
    | some name => .more (c.push (.tag name.toList) (tagBytes rest))
  else .done (.error rest.toList.head?)

/-- One turn of the scan. -/
def turn (text : String) (c : Cursor) : Turn :=
  if h : c.pos < text.utf8ByteSize then
    match sliceFrom? text c.pos with
    | none => .cut
    | some rest => c.look (Char.ofUInt8 (text.getUTF8Byte ⟨c.pos⟩ h)) rest
  else .done (.ok c.tokens)

/-- At most `n` turns of the scan. -/
def run (text : String) : Nat → Cursor → Turn
  | 0, c => .more c
  | n + 1, c =>
    match c.turn text with
    | .more next => run text n next
    | last => last

/-- A cursor at the head of some turn of the scan of a text. -/
inductive Reached (text : String) : Cursor → Prop
  | start : Reached text {}
  | turn {c next : Cursor} (h : Reached text c) (hturn : c.turn text = .more next) : Reached text next

end Cursor

/-! ## One turn -/

theorem isAsciiBlank_ascii (c : Char) (h : isAsciiBlank c = true) : c.toNat < 128 := by
  simp only [isAsciiBlank, Bool.or_eq_true, beq_iff_eq] at h
  rcases h with (((rfl | rfl) | rfl) | rfl) | rfl <;> decide

theorem isAlphanum_ascii {c : Char} (h : c.isAlphanum = true) : c.toNat < 128 := by
  have hbelow : ∀ high : Char, c.val ≤ high.val → high.toNat < 128 → c.toNat < 128 := by
    intro high hle hhigh
    exact Nat.lt_of_le_of_lt (UInt32.le_iff_toNat_le.1 hle) hhigh
  rcases Bool.or_eq_true_iff.1 h with h | h
  · rcases Bool.or_eq_true_iff.1 h with h | h
    · exact hbelow 'Z' (of_decide_eq_true h).2 (by decide)
    · exact hbelow 'z' (of_decide_eq_true (Bool.and_eq_true_iff.1 h).2) (by decide)
  · exact hbelow '9' (of_decide_eq_true (Bool.and_eq_true_iff.1 h).2) (by decide)

theorem isTagChar_ascii (c : Char) (h : isTagChar c = true) : c.toNat < 128 := by
  simp only [isTagChar, Bool.or_eq_true, beq_iff_eq] at h
  rcases h with (h | rfl) | rfl
  · exact isAlphanum_ascii h
  · decide
  · decide

namespace Cursor

/-- The byte at the position stands for the character that it starts. -/
theorem look_firstByte (c : Cursor) {d : Char} {b : UInt8} (hb : (String.utf8EncodeChar d).head? = some b)
    (rest : String) : c.look (Char.ofUInt8 b) rest = c.look d rest := by
  have heq : ∀ e : Char, e.toNat < 128 → (Char.ofUInt8 b = e ↔ d = e) := by
    intro e he
    have hclass : (Char.ofUInt8 b == e) = (d == e) := by
      refine @class_firstByte (· == e) (fun c hc => ?_) d b hb
      rwa [beq_iff_eq.1 hc]
    rw [← beq_iff_eq, hclass, beq_iff_eq]
  unfold look
  simp only [class_firstByte isAsciiBlank_ascii hb, class_firstByte isTagChar_ascii hb, heq '!' (by decide),
    heq '(' (by decide), heq ')' (by decide)]

/-- On a boundary the scan looks at the next character and the text from there on. -/
theorem turn_append {c : Cursor} {before : String} (hpos : c.pos = before.utf8ByteSize) (d : Char)
    (rest : List Char) :
    c.turn (before ++ String.ofList (d :: rest)) = c.look d (String.ofList (d :: rest)) := by
  obtain ⟨pos, tokens⟩ := c
  obtain rfl : pos = before.utf8ByteSize := hpos
  have hlt : before.utf8ByteSize < (before ++ String.ofList (d :: rest)).utf8ByteSize := by
    have hne : String.ofList (d :: rest) ≠ "" := by simp
    have hsize := mt String.utf8ByteSize_eq_zero_iff.1 hne
    rw [String.utf8ByteSize_append]
    omega
  rw [turn, dif_pos hlt]
  simp only [sliceFrom?_append]
  exact look_firstByte _ (byte_append before d rest hlt) _

theorem startsWith_ofList (pat : String) (text : List Char) :
    (String.ofList text).startsWith pat = pat.toList.isPrefixOf text := by
  rw [Bool.eq_iff_iff, String.startsWith_string_iff, String.toList_ofList, List.isPrefixOf_iff_prefix]

/-- What stands at the front is taken off, and nothing is cut. -/
theorem look_front (c : Cursor) {taken after : List Char} {token? : Option Token} (h : Front taken token? after)
    {d : Char} {rest : List Char} (htext : d :: rest = taken ++ after) :
    c.look d (String.ofList (d :: rest)) =
      .more ⟨c.pos + (String.ofList taken).utf8ByteSize, c.tokens ++ token?.toList⟩ := by
  unfold look
  simp only [startsWith_ofList]
  cases h with
  | blank hc =>
    obtain ⟨rfl, -⟩ := List.cons.inj htext
    have hsize : d.utf8Size = 1 := Char.utf8Size_eq_one_iff.2 (Nat.le_of_lt_succ (isAsciiBlank_ascii d hc))
    simp [hc, hsize]
  | mark hmark =>
    rw [htext]
    simp only [marks, List.mem_cons, List.not_mem_nil, or_false] at hmark
    rcases hmark with rfl | rfl | rfl | rfl | rfl <;> obtain ⟨rfl, -⟩ := List.cons.inj htext <;> rfl
  | tag hne hname hend =>
    obtain ⟨e, more, rfl⟩ := List.exists_cons_of_ne_nil hne
    rw [List.cons_append, List.cons.injEq] at htext
    obtain ⟨rfl, rfl⟩ := htext
    have htag : isTagChar d = true := hname d (by simp)
    have hother : ∀ e, isTagChar e = false → d ≠ e := fun e he => ne_of_isTagChar htag he
    have hprefix : ∀ e, isTagChar e = false → [e, e].isPrefixOf (d :: (more ++ after)) = false := by
      intro e he
      simp [List.isPrefixOf, (hother e he).symm]
    have hbytes : tagBytes (String.ofList (d :: more) ++ String.ofList after) =
        (String.ofList (d :: more)).utf8ByteSize :=
      tagBytes_append (by rwa [String.toList_ofList]) (by rwa [String.toList_ofList])
    have hsplit : String.ofList (d :: (more ++ after)) = String.ofList (d :: more) ++ String.ofList after := by
      rw [← String.ofList_append, List.cons_append]
    rw [hsplit, hbytes, sliceTo?_append]
    simp [isAsciiBlank_of_isTagChar htag, hprefix '&' rfl, hprefix '|' rfl, hother '!' rfl, hother '(' rfl,
      hother ')' rfl, htag, push]

/-- A character that starts no token ends the scan. -/
theorem look_stray (c : Cursor) {d : Char} {rest : List Char} (hblank : isAsciiBlank d = false)
    (h : ¬StartsToken (d :: rest)) : c.look d (String.ofList (d :: rest)) = .done (.error (some d)) := by
  obtain ⟨htag, hnot, hopening, hclosing, hand, hor⟩ := of_not_startsToken h
  have hprefix : ∀ pat : String, ¬pat.toList <+: d :: rest →
      (String.ofList (d :: rest)).startsWith pat = false := by
    intro pat hpat
    rwa [String.startsWith_string_eq_false_iff, String.toList_ofList]
  unfold look
  simp only [hblank, hprefix "&&" hand, hprefix "||" hor, hnot, hopening, hclosing, htag, Bool.false_eq_true,
    if_false, String.toList_ofList, List.head?_cons]

/-- The scan stands between two characters, and what is left of the text gives the rest of the tokens. -/
def Sound (text : String) (c : Cursor) : Prop :=
  ∃ before after, text = before ++ after ∧ c.pos = before.utf8ByteSize ∧
    tokenize text.toList = (tokenize after.toList).map (c.tokens ++ ·)

theorem sound_start (text : String) : Sound text {} := by
  refine ⟨"", text, by simp, rfl, ?_⟩
  cases tokenize text.toList <;> rfl

theorem Sound.isValid {text : String} {c : Cursor} (h : c.Sound text) : String.Pos.Raw.IsValid text ⟨c.pos⟩ := by
  obtain ⟨before, after, rfl, hpos, -⟩ := h
  rw [hpos]
  exact isValid_utf8ByteSize before after

theorem Sound.pos_le {text : String} {c : Cursor} (h : c.Sound text) : c.pos ≤ text.utf8ByteSize :=
  h.isValid.le_utf8ByteSize

/-- A turn goes on, to a greater position between two characters, or it ends the scan with what `tokenize`
gives. -/
theorem Sound.turn_cases {text : String} {c : Cursor} (h : c.Sound text) :
    (∃ next, c.turn text = .more next ∧ next.Sound text ∧ c.pos < next.pos) ∨
      c.turn text = .done ((tokenize text.toList).mapError some) := by
  obtain ⟨before, after, rfl, hpos, htokens⟩ := h
  cases hafter : after.toList with
  | nil =>
    obtain rfl : after = "" := String.toList_eq_nil_iff.1 hafter
    right
    rw [htokens, turn, dif_neg (by simp [hpos])]
    simp [tokenize, Except.map, Except.mapError]
  | cons d rest =>
    obtain rfl : after = String.ofList (d :: rest) := by rw [← hafter, String.ofList_toList]
    rw [turn_append hpos]
    rw [String.toList_ofList] at htokens
    rcases front_or_stray d rest with ⟨taken, token?, after, hfront, htext⟩ | ⟨hblank, hstray⟩
    · left
      refine ⟨_, look_front c hfront htext, ⟨before ++ String.ofList taken, String.ofList after, ?_, ?_, ?_⟩, ?_⟩
      · rw [htext, String.ofList_append, String.append_assoc]
      · rw [String.utf8ByteSize_append, hpos]
      · rw [htokens, htext, hfront.tokenize, String.toList_ofList]
        cases tokenize after <;> simp [Except.map]
      · have hne : String.ofList taken ≠ "" := by simpa using hfront.ne_nil
        have hsize := mt String.utf8ByteSize_eq_zero_iff.1 hne
        dsimp only
        omega
    · right
      rw [look_stray c hblank hstray, htokens, tokenize_stray hblank hstray]
      rfl

theorem Sound.turn_ne_cut {text : String} {c : Cursor} (h : c.Sound text) : c.turn text ≠ .cut := by
  rcases h.turn_cases with ⟨next, hnext, -, -⟩ | hdone
  · simp [hnext]
  · simp [hdone]

/-- The scan keeps to the boundaries between characters, and moves on. -/
theorem Sound.step {text : String} {c next : Cursor} (h : c.Sound text) (hturn : c.turn text = .more next) :
    next.Sound text ∧ c.pos < next.pos := by
  rcases h.turn_cases with ⟨next', hnext, hsound, hlt⟩ | hdone
  · rw [hturn] at hnext
    obtain rfl := Turn.more.inj hnext
    exact ⟨hsound, hlt⟩
  · rw [hturn] at hdone
    cases hdone

theorem Reached.sound {text : String} {c : Cursor} (h : Reached text c) : c.Sound text := by
  induction h with
  | start => exact sound_start text
  | turn _ hturn ih => exact (ih.step hturn).1

/-- There are at most as many turns as bytes are left, and one that ends the scan. -/
theorem Sound.run {text : String} {c : Cursor} (h : c.Sound text) {n : Nat} (hn : text.utf8ByteSize - c.pos < n) :
    run text n c = .done ((tokenize text.toList).mapError some) := by
  induction n generalizing c with
  | zero => omega
  | succ n ih =>
    rw [Cursor.run]
    rcases h.turn_cases with ⟨next, hnext, hsound, hlt⟩ | hdone
    · have hle := hsound.pos_le
      rw [hnext]
      exact ih hsound (by omega)
    · rw [hdone]

end Cursor

/-- The scan of a text stands between two characters at the head of every turn, cuts no character and moves
on, so it ends after as many turns as the text has bytes and one more, with what `tokenize` gives.  The tokens
of a text are the text without its white space, of which tags have none, and there is some between two tags that
follow each other.  A text without tokens has a first character that is no white space and starts none, and that
one is reported. -/
theorem scan_exact (text : String) :
    (∀ c, Cursor.Reached text c → String.Pos.Raw.IsValid text ⟨c.pos⟩ ∧ c.turn text ≠ .cut ∧
      ∀ next, c.turn text = .more next → c.pos < next.pos) ∧
    (∀ n, text.utf8ByteSize < n → Cursor.run text n {} = .done ((tokenize text.toList).mapError some)) ∧
    (∀ tokens, tokenize text.toList = .ok tokens →
      (∀ token ∈ tokens, token.Formed) ∧
      tokens.flatMap Token.spelling = text.toList.filter (fun c => !isAsciiBlank c) ∧
      ∀ before a b after, tokens = before ++ .tag a :: .tag b :: after →
        ∃ front gap back, text.toList = front ++ (a ++ (gap ++ (b ++ back))) ∧ gap ≠ [] ∧
          (∀ c ∈ gap, isAsciiBlank c = true) ∧ tokenize front = .ok before ∧ tokenize back = .ok after) ∧
    ∀ c, tokenize text.toList = .error c ↔ ∃ before tokens after, text.toList = before ++ c :: after ∧
      tokenize before = .ok tokens ∧ isAsciiBlank c = false ∧ ¬StartsToken (c :: after) := by
  refine ⟨fun c h => ?_, fun n hn => ?_, fun tokens h => ?_, tokenize_eq_error_iff text.toList⟩
  · exact ⟨h.sound.isValid, h.sound.turn_ne_cut, fun next hnext => (h.sound.step hnext).2⟩
  · exact (Cursor.sound_start text).run (by simpa using hn)
  · have hspells := spells_of_tokenize h
    refine ⟨hspells.formed, hspells.spelling_eq, ?_⟩
    rintro before a b after rfl
    obtain ⟨front, gap, back, htext, hne, hgap, hfront, hback⟩ := hspells.tags_apart
    exact ⟨front, gap, back, htext, hne, hgap, tokenize_of_spells hfront, tokenize_of_spells hback⟩

/-- A character of two bytes that starts no token: it is reported whole. -/
theorem scan_exact_accented : Cursor.run "go é" 6 {} = .done (.error (some 'é')) := by
  obtain ⟨-, hrun, -, herror⟩ := scan_exact "go é"
  have hgo : tokenize ['g', 'o', ' '] = .ok [.tag ['g', 'o']] :=
    tokenize_of_spells (.tag (by simp) (List.all_eq_true.1 (by decide)) (endsRun_cons rfl) (.blank rfl .done))
  have hstray : ¬StartsToken ['é'] := by
    rintro ⟨token, hformed, hpre⟩
    cases token with
    | tag name =>
      obtain ⟨c, name, rfl⟩ := List.exists_cons_of_ne_nil hformed.1
      obtain ⟨rfl, -⟩ := List.cons_prefix_cons.1 hpre
      exact absurd (hformed.2 'é' (by simp)) (by decide)
    | _ => exact absurd (List.cons_prefix_cons.1 hpre).1 (by decide)
  have hreported : tokenize "go é".toList = .error 'é' :=
    (herror 'é').2 ⟨['g', 'o', ' '], _, [], by simp, hgo, rfl, hstray⟩
  rw [hrun 6 (by decide), hreported]
  rfl

end GoApi.Build
