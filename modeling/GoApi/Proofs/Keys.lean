import GoApi.Proofs.Insertion
import GoApi.Proofs.Text.Unique

/-!
# Keys and what they stand for

A declaration introduces an `Entity`: a plain name, or a method on a receiver.  The key under which a table
holds a method is put together from two texts, and still tells which entity it stands for,

    a.Formed → b.Formed → (a.key = b.key ↔ a = b)                      (key_inj)

as a method's name has no dot, and a receiver starts with no parenthesis but the one that its star gets.  So
an offer to a table is refused only if the same entity was offered before (`insert_duplicate_iff`), and
whether a symbol is visible depends on its entity alone (`Symbol.Built.visible_eq`).

Types, functions, constants and variables share one scope: what a plain name declares is no part of its
entity.
-/

namespace GoApi

/-! ## Entities -/

/-- What a declaration introduces.  The receiver of a method is given as it is written: `*T` or `T`. -/
inductive Entity where
  | plain (name : String)
  | method (receiver name : String)
  deriving DecidableEq, Repr

/-- The key of an entity. -/
def Entity.key : Entity → String
  | .plain name => name
  | .method receiver name => methodKey receiver name

/-- Whether an entity can be used by other packages: its name is exported, and its receiver's is. -/
def Entity.exported : Entity → Bool
  | .plain name => isExported name
  | .method receiver name => isExported name && isExported (withoutStars receiver)

/-- No name has a dot, and no receiver starts with a parenthesis. -/
def Entity.Formed : Entity → Prop
  | .plain name => '.' ∉ name.toList
  | .method receiver name => '.' ∉ name.toList ∧ receiver.toList.head? ≠ some '('

/-- The characters that keys and receivers are put together with, besides names. -/
def keyMarks : List Char := ['(', ')', '*', '.']

/-- A text without the marks of keys; every identifier is one. -/
def IsName (s : String) : Prop := ∀ c ∈ keyMarks, c ∉ s.toList

instance (s : String) : Decidable (IsName s) := List.decidableBAll (fun c => c ∉ s.toList) keyMarks

/-- The three shapes of entities over names. -/
inductive Entity.Named : Entity → Prop
  | plain (N : String) : IsName N → Named (.plain N)
  | value (T M : String) : IsName T → IsName M → Named (.method T M)
  | pointer (T M : String) : IsName T → IsName M → Named (.method ("*" ++ T) M)

theorem IsName.dotless {s : String} (h : IsName s) : '.' ∉ s.toList := h '.' (by decide)

theorem Entity.Named.formed {e : Entity} (h : e.Named) : e.Formed := by
  cases h with
  | plain N hN => exact hN.dotless
  | value T M hT hM =>
    refine ⟨hM.dotless, fun hhead => ?_⟩
    exact hT '(' (by decide) (List.mem_of_head? hhead)
  | pointer T M hT hM => exact ⟨hM.dotless, by simp⟩

/-! ## The last dot -/

/-- A text is cut at its last dot in one way. -/
theorem lastDot_unique {w v m n : List Char} (hm : '.' ∉ m) (hn : '.' ∉ n)
    (h : w ++ '.' :: m = v ++ '.' :: n) : w = v ∧ m = n := by
  have hrev : m.reverse ++ '.' :: w.reverse = n.reverse ++ '.' :: v.reverse := by
    simpa using congrArg List.reverse h
  obtain ⟨hmn, hwv⟩ := Text.upTo_unique '.' _ _ _ _ (by simpa using hm) (by simpa using hn) hrev
  exact ⟨List.reverse_inj.1 hwv, List.reverse_inj.1 hmn⟩

theorem afterLastDot_eq {s : String} {w : List Char} {m : String} (hm : '.' ∉ m.toList)
    (h : s.toList = w ++ '.' :: m.toList) : afterLastDot s = m := by
  have hrev : s.toList.reverse = m.toList.reverse ++ '.' :: w.reverse := by simp [h]
  have hrun : ∀ c ∈ m.toList.reverse, decide (c ≠ '.') = true := by
    intro c hc
    rw [decide_eq_true_eq]
    rintro rfl
    exact hm (List.mem_reverse.1 hc)
  unfold afterLastDot
  rw [hrev, Text.takeWhile_run _ _ _ hrun (Text.endsRun_cons (by decide)), List.reverse_reverse,
    String.ofList_toList]

/-! ## Keys of methods -/

/-- The receiver as it stands in a key. -/
def receiverText (receiver : String) : List Char :=
  if receiver.toList.head? = some '*' then '(' :: (receiver.toList ++ [')']) else receiver.toList

theorem toList_methodKey (receiver name : String) :
    (methodKey receiver name).toList = receiverText receiver ++ '.' :: name.toList := by
  unfold methodKey receiverText
  split
  · next rest hstar => simp [hstar]
  · next hplain =>
    have hhead : receiver.toList.head? ≠ some '*' := by
      intro hhead
      obtain ⟨rest, hrest⟩ := List.head?_eq_some_iff.1 hhead
      exact hplain rest hrest
    simp [hhead]

theorem receiverText_inj {r r' : String} (hr : r.toList.head? ≠ some '(') (hr' : r'.toList.head? ≠ some '(')
    (h : receiverText r = receiverText r') : r = r' := by
  unfold receiverText at h
  split at h <;> split at h
  · exact String.toList_injective (by simpa using h)
  · rw [← h] at hr'
    exact absurd rfl hr'
  · rw [h] at hr
    exact absurd rfl hr
  · exact String.toList_injective h

theorem dot_mem_methodKey (receiver name : String) : '.' ∈ (methodKey receiver name).toList := by
  simp [toList_methodKey]

theorem methodKey_inj {r r' m m' : String} (hr : r.toList.head? ≠ some '(') (hr' : r'.toList.head? ≠ some '(')
    (hm : '.' ∉ m.toList) (hm' : '.' ∉ m'.toList) (h : methodKey r m = methodKey r' m') : r = r' ∧ m = m' := by
  have htext := congrArg String.toList h
  rw [toList_methodKey, toList_methodKey] at htext
  obtain ⟨hreceiver, hname⟩ := lastDot_unique hm hm' htext
  exact ⟨receiverText_inj hr hr' hreceiver, String.toList_injective hname⟩

/-- A key stands for one entity. -/
theorem Entity.key_inj {a b : Entity} (ha : a.Formed) (hb : b.Formed) : a.key = b.key ↔ a = b := by
  refine ⟨fun h => ?_, congrArg Entity.key⟩
  cases a with
  | plain n =>
    cases b with
    | plain n' => exact congrArg Entity.plain h
    | method r' m' =>
      -- a plain name has no dot, the key of a method has one
      have hdot : '.' ∈ n.toList := congrArg String.toList h ▸ dot_mem_methodKey r' m'
      exact absurd hdot ha
  | method r m =>
    cases b with
    | plain n' =>
      have hdot : '.' ∈ n'.toList := congrArg String.toList h ▸ dot_mem_methodKey r m
      exact absurd hdot hb
    | method r' m' =>
      obtain ⟨rfl, rfl⟩ := methodKey_inj ha.2 hb.2 ha.1 hb.1 h
      rfl

/-! ## Symbols -/

/-- The name that decides about a method is the method's. -/
theorem identifier_method {receiver name : String} (hname : '.' ∉ name.toList) (type : Ty) :
    (Symbol.method receiver name type).identifier = name :=
  afterLastDot_eq hname (toList_methodKey receiver name)

theorem withoutStars_eq {s : String} (h : IsName s) : withoutStars s = s := by
  have hends : Text.EndsRun (fun c => decide (c = '*')) s.toList := by
    intro c rest hs
    rw [decide_eq_false_iff_not]
    rintro rfl
    exact h '*' (by decide) (by simp [hs])
  have hdrop := Text.dropWhile_run _ [] s.toList (by simp) hends
  unfold withoutStars
  rw [List.nil_append] at hdrop
  rw [hdrop, String.ofList_toList]

theorem withoutStars_star (s : String) : withoutStars ("*" ++ s) = withoutStars s := by
  simp [withoutStars]

/-- A method on `T` or `*T` is decided about by its name, and visible if that and `T` are exported. -/
theorem method_visible {T M : String} (hT : IsName T) (hM : IsName M) {receiver : String}
    (hreceiver : receiver = T ∨ receiver = "*" ++ T) (type : Ty) :
    (Symbol.method receiver M type).identifier = M ∧
      ((Symbol.method receiver M type).visible = true ↔ isExported M = true ∧ isExported T = true) := by
  have hidentifier : (Symbol.method receiver M type).identifier = M := identifier_method hM.dotless type
  have hstars : withoutStars receiver = T := by
    rcases hreceiver with rfl | rfl
    · exact withoutStars_eq hT
    · rw [withoutStars_star, withoutStars_eq hT]
  refine ⟨hidentifier, ?_⟩
  rw [Symbol.visible, hidentifier, Bool.and_eq_true]
  simp [Symbol.method, hstars]

/-- The entity that a symbol stands for. -/
def Symbol.entity (s : Symbol) : Entity :=
  match s.receiver with
  | none => .plain s.name
  | some receiver => .method receiver s.identifier

/-- The symbols that declarations give: plain ones, and methods. -/
inductive Symbol.Built : Symbol → Prop
  | plain (name : String) (kind : DeclKind) (type : Ty) :
      (Entity.plain name).Formed → kind ≠ .method → Built { name, kind, type }
  | method (receiver name : String) (type : Ty) :
      (Entity.method receiver name).Formed → Built (.method receiver name type)

theorem entity_method {receiver name : String} (hname : '.' ∉ name.toList) (type : Ty) :
    (Symbol.method receiver name type).entity = .method receiver name :=
  congrArg (Entity.method receiver) (identifier_method hname type)

namespace Symbol.Built

variable {s u : Symbol}

theorem formed (h : s.Built) : s.entity.Formed := by
  cases h with
  | plain name kind type hformed hkind => exact hformed
  | method receiver name type hformed => rwa [entity_method hformed.1]

theorem name_eq (h : s.Built) : s.name = s.entity.key := by
  cases h with
  | plain name kind type hformed hkind => rfl
  | method receiver name type hformed =>
    rw [entity_method hformed.1]
    rfl

/-- A symbol is visible exactly if its entity is exported. -/
theorem visible_eq (h : s.Built) : s.visible = s.entity.exported := by
  cases h with
  | plain name kind type hformed hkind =>
    cases kind with
    | method => exact absurd rfl hkind
    | _ => exact Bool.and_true _
  | method receiver name type hformed =>
    rw [entity_method hformed.1, Symbol.visible, identifier_method hformed.1]
    rfl

/-- Symbols of one key stand for one entity. -/
theorem name_eq_iff (hu : u.Built) (hs : s.Built) : u.name = s.name ↔ u.entity = s.entity := by
  rw [hu.name_eq, hs.name_eq]
  exact Entity.key_inj hu.formed hs.formed

end Symbol.Built

/-! ## Offers -/

/-- An offer is refused exactly if the entity is exported and was offered before. -/
theorem insert_duplicate_iff (package : String) {before : List Symbol} {s : Symbol}
    (hbefore : ∀ u ∈ before, u.Built) (hs : s.Built) :
    ((SymbolTable.afterOffers { package } before).insert s).1 = .duplicate ↔
      s.entity.exported = true ∧ s.entity ∈ before.map Symbol.entity := by
  rw [(SymbolTable.answered_offered package before s).duplicate, hs.visible_eq, List.mem_map]
  refine and_congr_right fun hexported => exists_congr fun u => and_congr_right fun hu => ?_
  have hbuilt := hbefore u hu
  rw [hbuilt.name_eq_iff hs, and_iff_right_iff_imp]
  intro hentity
  rw [hbuilt.visible_eq, hentity, hexported]

end GoApi
