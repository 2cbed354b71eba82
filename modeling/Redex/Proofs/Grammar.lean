import Redex.Term.Basic
import Redex.Token

/-!
# The grammar of terms

A text is a term if its characters, spaces aside, are derived by three rules:

* a term is `λ`, an identifier, a dot and a term, or else an application;
* an application is a row of one or more atoms, applied from left to right;
* an atom is a term in parentheses or an identifier.

`Derives` is these rules, with the term that a derivation stands for. It knows of no cursor and no
reading order. A body has no end of its own, so it runs as far as the phrase that it is part of, and
an abstraction is an atom only in parentheses.
-/

namespace Redex.Grammar

/-! ## Characters -/

/-- Whether a character stands for λ. -/
def IsLambda (c : Char) : Prop := c = '\\' ∨ c = 'λ'

/-- Whether a character is an identifier. -/
def IsIdentifier (c : Char) : Prop := 'a' ≤ c ∧ c ≤ 'z'

/-- Whether a character is one that texts of terms are made of, spaces aside. -/
def IsSymbol (c : Char) : Prop := IsIdentifier c ∨ c = '(' ∨ c = ')' ∨ c = '.' ∨ IsLambda c

instance (c : Char) : Decidable (IsLambda c) := inferInstanceAs (Decidable (_ ∨ _))

instance (c : Char) : Decidable (IsIdentifier c) := inferInstanceAs (Decidable (_ ∧ _))

instance (c : Char) : Decidable (IsSymbol c) := inferInstanceAs (Decidable (_ ∨ _))

/-- The characters that are tokens of a kind. -/
def Shows : Token.Kind → Char → Prop
  | .endOfText, _ => False
  | .lambda, c => IsLambda c
  | .openParen, c => c = '('
  | .closeParen, c => c = ')'
  | .identifier, c => IsIdentifier c
  | .dot, c => c = '.'

theorem shows_of_ofChar? {c : Char} {kind : Token.Kind} (known : Token.Kind.ofChar? c = some kind) :
    Shows kind c := by
  unfold Token.Kind.ofChar? at known
  split at known
  · next same => cases known; exact same
  · split at known
    · next same => cases known; exact same
    · split at known
      · next same => cases known; exact same
      · split at known
        · next same => cases known; exact same
        · split at known
          · next range => cases known; exact range
          · cases known

theorem ofChar?_eq_some_iff {c : Char} {kind : Token.Kind} :
    Token.Kind.ofChar? c = some kind ↔ Shows kind c := by
  refine ⟨shows_of_ofChar?, ?_⟩
  intro shows
  cases kind with
  | endOfText => cases shows
  | openParen => rw [show c = '(' from shows]; rfl
  | closeParen => rw [show c = ')' from shows]; rfl
  | dot => rw [show c = '.' from shows]; rfl
  | lambda =>
    rcases shows with rfl | rfl
    · rfl
    · rfl
  | identifier =>
    have apart : ∀ d : Char, ¬IsIdentifier d → c ≠ d := by
      intro d outside same
      exact outside (same ▸ shows)
    have range : 'a' ≤ c ∧ c ≤ 'z' := shows
    simp [Token.Kind.ofChar?, apart '(' (by decide), apart ')' (by decide), apart '.' (by decide),
      apart '\\' (by decide), apart 'λ' (by decide), range]

theorem isSymbol_iff {c : Char} : IsSymbol c ↔ ∃ kind, Token.Kind.ofChar? c = some kind := by
  simp only [ofChar?_eq_some_iff]
  constructor
  · rintro (letter | opens | closes | dot | lambda)
    · exact ⟨.identifier, letter⟩
    · exact ⟨.openParen, opens⟩
    · exact ⟨.closeParen, closes⟩
    · exact ⟨.dot, dot⟩
    · exact ⟨.lambda, lambda⟩
  · rintro ⟨kind, shows⟩
    cases kind with
    | endOfText => cases shows
    | lambda => exact Or.inr (Or.inr (Or.inr (Or.inr shows)))
    | openParen => exact Or.inr (Or.inl shows)
    | closeParen => exact Or.inr (Or.inr (Or.inl shows))
    | identifier => exact Or.inl shows
    | dot => exact Or.inr (Or.inr (Or.inr (Or.inl shows)))

/-! ## Derivations -/

/-- The phrases of the grammar. -/
inductive Phrase where
  | term
  | application
  | atom
deriving DecidableEq, Repr

/-- A row of characters is a phrase, and stands for a term. The further atoms of an application come
as a list, each with its own characters and its own term. -/
inductive Derives : Phrase → List Char → Term → Prop
  | abstraction {l x : Char} {cs : List Char} {body : Term} :
    IsLambda l → IsIdentifier x → Derives .term cs body →
    Derives .term (l :: x :: '.' :: cs) (.abs (String.singleton x) body)
  | application {cs : List Char} {t : Term} : Derives .application cs t → Derives .term cs t
  | row {cs : List Char} {function : Term} {atoms : List (List Char × Term)} :
    Derives .atom cs function → (∀ atom ∈ atoms, Derives .atom atom.1 atom.2) →
    Derives .application (cs ++ atoms.flatMap Prod.fst)
      ((atoms.map Prod.snd).foldl Term.app function)
  | parens {cs : List Char} {t : Term} :
    Derives .term cs t → Derives .atom ('(' :: (cs ++ [')'])) t
  | identifier {x : Char} : IsIdentifier x → Derives .atom [x] (.var (String.singleton x))

theorem Derives.length_pos {phrase : Phrase} {cs : List Char} {t : Term}
    (derives : Derives phrase cs t) : 0 < cs.length := by
  induction derives with
  | abstraction => simp
  | application _ ih => exact ih
  | row _ _ ih _ =>
    rw [List.length_append]
    omega
  | parens => simp
  | identifier => simp

/-- Whatever is derived is made of symbols. -/
theorem Derives.isSymbol {phrase : Phrase} {cs : List Char} {t : Term}
    (derives : Derives phrase cs t) : ∀ c ∈ cs, IsSymbol c := by
  induction derives with
  | @abstraction l x cs body lambda letter _ ih =>
    intro c inside
    rcases List.mem_cons.1 inside with rfl | inside
    · exact Or.inr (Or.inr (Or.inr (Or.inr lambda)))
    · rcases List.mem_cons.1 inside with rfl | inside
      · exact Or.inl letter
      · rcases List.mem_cons.1 inside with rfl | inside
        · exact Or.inr (Or.inr (Or.inr (Or.inl rfl)))
        · exact ih c inside
  | application _ ih => exact ih
  | row _ _ ih ihs =>
    intro c inside
    rcases List.mem_append.1 inside with first | further
    · exact ih c first
    · obtain ⟨atom, listed, here⟩ := List.mem_flatMap.1 further
      exact ihs atom listed c here
  | parens _ ih =>
    intro c inside
    rcases List.mem_cons.1 inside with rfl | inside
    · exact Or.inr (Or.inl rfl)
    · rcases List.mem_append.1 inside with inner | last
      · exact ih c inner
      · rw [List.mem_singleton.1 last]
        exact Or.inr (Or.inr (Or.inl rfl))
  | identifier letter =>
    intro c inside
    rw [List.mem_singleton.1 inside]
    exact Or.inl letter

/-- Whatever is derived closes the parentheses that it opens. -/
theorem Derives.balanced {phrase : Phrase} {cs : List Char} {t : Term}
    (derives : Derives phrase cs t) : cs.count '(' = cs.count ')' := by
  induction derives with
  | @abstraction l x cs body lambda letter _ ih =>
    have apart : ∀ c, ¬IsLambda c → ¬IsIdentifier c → l ≠ c ∧ x ≠ c :=
      fun c other other' => ⟨fun same => other (same ▸ lambda), fun same => other' (same ▸ letter)⟩
    obtain ⟨lambdaOpen, letterOpen⟩ := apart '(' (by decide) (by decide)
    obtain ⟨lambdaClose, letterClose⟩ := apart ')' (by decide) (by decide)
    simp [lambdaOpen, letterOpen, lambdaClose, letterClose, ih]
  | application _ ih => exact ih
  | row _ _ ih ihs =>
    rw [List.count_append, List.count_append, List.count_flatMap, List.count_flatMap, ih]
    refine congrArg (fun counts => _ + List.sum counts) (List.map_congr_left ?_)
    exact ihs
  | parens _ ih =>
    simp [List.count_append, ih]
  | @identifier x letter =>
    have apart : ∀ c, ¬IsIdentifier c → x ≠ c :=
      fun c other same => other (same ▸ letter)
    rw [List.count_cons_of_ne (apart '(' (by decide)),
      List.count_cons_of_ne (apart ')' (by decide))]
    rfl

/-- An atom by itself is an application. -/
theorem Derives.alone {cs : List Char} {t : Term} (derives : Derives .atom cs t) :
    Derives .application cs t := by
  have row : Derives .application (cs ++ List.flatMap Prod.fst []) t := .row derives nofun
  rwa [List.flatMap_nil, List.append_nil] at row

/-- An atom by itself is a term. -/
theorem Derives.ofAtom {cs : List Char} {t : Term} (derives : Derives .atom cs t) :
    Derives .term cs t :=
  .application derives.alone

/-! ## Texts -/

/-- The characters of a text, spaces aside. -/
def spaceless (cs : List Char) : List Char := cs.filter (· != ' ')

theorem spaceless_append (cs ds : List Char) :
    spaceless (cs ++ ds) = spaceless cs ++ spaceless ds :=
  List.filter_append ..

theorem ne_space_of_mem {c : Char} {cs : List Char} (inside : c ∈ spaceless cs) : c ≠ ' ' := by
  simpa using (List.mem_filter.1 inside).2

theorem spaceless_eq_self {cs : List Char} (tight : ∀ c ∈ cs, c ≠ ' ') : spaceless cs = cs :=
  List.filter_eq_self.2 fun c inside => bne_iff_ne.2 (tight c inside)

/-- No symbol is a space. -/
theorem Derives.ne_space {phrase : Phrase} {cs : List Char} {t : Term}
    (derives : Derives phrase cs t) : ∀ c ∈ cs, c ≠ ' ' := by
  rintro c inside rfl
  exact absurd (derives.isSymbol ' ' inside) (by decide)

/-- Whether a text spells a term: it holds symbols and spaces only, and the symbols are derived. -/
def Spells (source : String) (t : Term) : Prop :=
  (∀ c ∈ source.toList, c = ' ' ∨ IsSymbol c) ∧ Derives .term (spaceless source.toList) t

theorem spells_of_derives {source : String} {t : Term}
    (derives : Derives .term (spaceless source.toList) t) : Spells source t := by
  refine ⟨?_, derives⟩
  intro c inside
  by_cases space : c = ' '
  · exact Or.inl space
  · exact Or.inr (derives.isSymbol c (List.mem_filter.2 ⟨inside, by simpa using space⟩))

end Redex.Grammar
