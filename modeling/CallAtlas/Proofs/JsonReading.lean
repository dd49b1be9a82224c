import CallAtlas.Proofs.Digits
import CallAtlas.Proofs.JsonSpelling

/-!
# A strict text has one reading

Where a token ends can be seen from the text: brackets, colons and commas are single characters, a string ends at
its first quote that is not escaped, and numbers and words are made of characters that nothing else starts with
(`IsBare`).  In a document no two scalars stand side by side (`apart_tokens`).  So a text is strict JSON for one
list of tokens at most (`Strict.tokens_unique`).
-/

namespace CallAtlas.Json

open Text

/-! ## Characters -/

/-- A character of numbers and words. -/
def IsBare (c : Char) : Prop :=
  c.isDigit = true ∨ c ∈ ['-', '+', '.', 'e', 'E', 't', 'r', 'u', 'f', 'a', 'l', 's', 'n']

theorem isBare_of_isNumber {text : List Char} (isNumber : IsNumber text) :
    text ≠ [] ∧ ∀ c ∈ text, IsBare c := by
  have digits {ds : List Char} (areDigits : AreDigits ds) : ∀ c ∈ ds, IsBare c :=
    fun c member => .inl (areDigits c member)
  obtain ⟨signed, isWhole, isFraction, isExponent⟩ := isNumber
  refine ⟨?_, ?_⟩
  · cases isWhole <;> simp
  · simp only [List.mem_append]
    rintro c (((inSign | inWhole) | inFraction) | inExponent)
    · simp only [List.mem_cons, List.not_mem_nil, or_false] at signed
      rcases signed with rfl | rfl
      · cases inSign
      · simp_all [IsBare]
    · cases isWhole with
      | zero => simp_all [IsBare]
      | other _ areDigits => exact digits areDigits c inWhole
    · cases isFraction with
      | none => cases inFraction
      | some areDigits =>
        rcases List.mem_cons.mp inFraction with rfl | inDigits
        · simp [IsBare]
        · exact digits areDigits c inDigits
    · cases isExponent with
      | none => cases inExponent
      | some marked signed areDigits =>
        simp only [List.cons_append, List.mem_cons, List.mem_append] at inExponent
        rcases inExponent with rfl | inSign | inDigits
        · rcases marked with rfl | rfl <;> simp [IsBare]
        · simp only [List.mem_cons, List.not_mem_nil, or_false] at signed
          rcases signed with rfl | rfl | rfl
          · cases inSign
          · simp_all [IsBare]
          · simp_all [IsBare]
        · exact digits areDigits c (List.mem_cons.mpr inDigits)

theorem isBare_of_isScalar {text : List Char} (isScalar : IsScalar text) :
    IsString text ∨ text ≠ [] ∧ ∀ c ∈ text, IsBare c := by
  cases isScalar with
  | string isString => exact .inl isString
  | number isNumber => exact .inr (isBare_of_isNumber isNumber)
  | word isWord =>
    right
    simp only [List.mem_cons, List.not_mem_nil, or_false] at isWord
    rcases isWord with rfl | rfl | rfl <;> simp [IsBare]

theorem IsBare.not_mem {c : Char} (bare : IsBare c) :
    c ∉ ['"', '/', '\\', ',', ':', '[', ']', '\x7b', '\x7d'] := by
  intro member
  simp only [List.mem_cons, List.not_mem_nil, or_false] at member
  rcases member with rfl | rfl | rfl | rfl | rfl | rfl | rfl | rfl | rfl <;> simp [IsBare] at bare

theorem IsBare.not_isBlank {c : Char} (bare : IsBare c) : isBlank c = false := by
  rcases bare with digit | other
  · exact not_isBlank_of_isDigit digit
  · simp only [List.mem_cons, List.not_mem_nil, or_false] at other
    rcases other with rfl | rfl | rfl | rfl | rfl | rfl | rfl | rfl | rfl | rfl | rfl | rfl | rfl <;> decide

theorem isBlank_of_isSpace {c : Char} (space : isSpace c = true) : isBlank c = true := by
  simp only [isSpace, Bool.or_eq_true, decide_eq_true_eq] at space
  rcases space with ((rfl | rfl) | rfl) | rfl <;> decide

theorem not_isBare_of_isSpace {c : Char} (space : isSpace c = true) : ¬ IsBare c := by
  intro bare
  have notBlank := bare.not_isBlank
  rw [isBlank_of_isSpace space] at notBlank
  cases notBlank

/-! ## First characters -/

def Token.isScalar : Token → Bool
  | scalar _ => true
  | _ => false

/-- The token that a character is by itself. -/
def Token.ofMark? : Char → Option Token
  | '[' => some (.opening .square)
  | ']' => some (.closing .square)
  | '\x7b' => some (.opening .curly)
  | '\x7d' => some (.closing .curly)
  | ':' => some .colon
  | ',' => some .comma
  | _ => none

theorem Token.exists_mark {t : Token} (notScalar : t.isScalar = false) :
    ∃ c, t.text = [c] ∧ Token.ofMark? c = some t := by
  cases t with
  | opening b | closing b => cases b <;> exact ⟨_, rfl, rfl⟩
  | colon | comma => exact ⟨_, rfl, rfl⟩
  | scalar s => cases notScalar

theorem IsBare.ofMark?_eq_none {c : Char} (bare : IsBare c) : Token.ofMark? c = none := by
  have others := bare.not_mem
  unfold Token.ofMark?
  split <;> simp at others
  rfl

theorem IsScalar.exists_first {text : List Char} (isScalar : IsScalar text) :
    ∃ c cs, text = c :: cs ∧ (c = '"' ∨ IsBare c) := by
  rcases isBare_of_isScalar isScalar with ⟨body, -, rfl⟩ | ⟨nonempty, bare⟩
  · exact ⟨'"', _, rfl, .inl rfl⟩
  · obtain ⟨c, cs, rfl⟩ := List.exists_cons_of_ne_nil nonempty
    exact ⟨c, cs, rfl, .inr (bare c List.mem_cons_self)⟩

/-- A token shows by its first character whether it is a scalar, and which mark it is otherwise. -/
theorem Token.exists_first (t : Token) :
    ∃ c cs, t.text = c :: cs ∧ isBlank c = false ∧
      Token.ofMark? c = (if t.isScalar then none else some t) := by
  cases form : t.isScalar with
  | false =>
    obtain ⟨c, text, mark⟩ := Token.exists_mark form
    refine ⟨c, [], text, ?_, by simpa using mark⟩
    unfold Token.ofMark? at mark
    split at mark <;> first | decide | cases mark
  | true =>
    cases t with
    | opening | closing | colon | comma => cases form
    | scalar s =>
      obtain ⟨c, cs, text, isQuote | bare⟩ := s.isScalar.exists_first
      · exact ⟨c, cs, text, by rw [isQuote]; decide, by rw [isQuote]; rfl⟩
      · exact ⟨c, cs, text, bare.not_isBlank, bare.ofMark?_eq_none⟩

/-! ## Where a token ends -/

/-- A run of characters of one class ends where a character of another class follows. -/
theorem eq_of_append_run {p : Char → Prop} {x y rest rest' : List Char} (xRun : ∀ c ∈ x, p c)
    (yRun : ∀ c ∈ y, p c) (ends : ∀ c ∈ rest.head?, ¬ p c) (ends' : ∀ c ∈ rest'.head?, ¬ p c)
    (same : x ++ rest = y ++ rest') : x = y ∧ rest = rest' := by
  induction x generalizing y with
  | nil =>
    cases y with
    | nil => exact ⟨rfl, same⟩
    | cons d ys =>
      rw [List.nil_append, List.cons_append] at same
      exact absurd (yRun d List.mem_cons_self) (ends d (by simp [same]))
  | cons c xs inductionHypothesis =>
    cases y with
    | nil =>
      rw [List.nil_append, List.cons_append] at same
      exact absurd (xRun c List.mem_cons_self) (ends' c (by simp [← same]))
    | cons d ys =>
      rw [List.cons_append, List.cons_append, List.cons.injEq] at same
      obtain ⟨rfl, rests⟩ := inductionHypothesis (fun e member => xRun e (List.mem_cons_of_mem c member))
        (fun e member => yRun e (List.mem_cons_of_mem d member)) same.2
      exact ⟨by rw [same.1], rests⟩

/-- A string ends at its first quote that is not escaped. -/
theorem IsStringBody.eq_of_append {x y rest rest' : List Char} (xBody : IsStringBody x)
    (yBody : IsStringBody y) (same : x ++ '"' :: rest = y ++ '"' :: rest') : x = y ∧ rest = rest' := by
  induction xBody generalizing y with
  | nil =>
    cases yBody with
    | nil | escape | unit => simp_all
    | plain noQuote => exact absurd (List.cons.inj same).1.symm noQuote
  | plain noQuote noBackslash _ _ inductionHypothesis =>
    cases yBody with
    | nil | escape | unit => simp_all
    | plain _ _ _ yBody =>
      simp only [List.cons_append, List.cons.injEq] at same
      obtain ⟨rfl, rests⟩ := inductionHypothesis yBody same.2
      exact ⟨by rw [same.1], rests⟩
  | escape known _ inductionHypothesis =>
    cases yBody with
    | nil => simp_all
    | plain _ noBackslash => exact absurd (List.cons.inj same).1.symm noBackslash
    | escape _ yBody =>
      simp only [List.cons_append, List.cons.injEq, true_and] at same
      obtain ⟨rfl, rests⟩ := inductionHypothesis yBody same.2
      exact ⟨by rw [same.1], rests⟩
    | unit =>
      simp only [List.cons_append, List.cons.injEq, true_and] at same
      rw [same.1] at known
      simp at known
  | unit digits _ inductionHypothesis =>
    cases yBody with
    | nil => simp_all
    | plain _ noBackslash => exact absurd (List.cons.inj same).1.symm noBackslash
    | escape known =>
      simp only [List.cons_append, List.cons.injEq, true_and] at same
      rw [← same.1] at known
      simp at known
    | unit _ yBody =>
      simp only [List.cons_append, List.cons.injEq, true_and] at same
      obtain ⟨rfl, rfl, rfl, rfl, same⟩ := same
      obtain ⟨rfl, rests⟩ := inductionHypothesis yBody same
      exact ⟨rfl, rests⟩

/-- The text goes on with something that does not belong to a number or a word. -/
def EndsBare (rest : List Char) : Prop := ∀ c ∈ rest.head?, ¬ IsBare c

theorem IsScalar.eq_of_append {x y rest rest' : List Char} (xScalar : IsScalar x) (yScalar : IsScalar y)
    (ends : EndsBare rest) (ends' : EndsBare rest') (same : x ++ rest = y ++ rest') :
    x = y ∧ rest = rest' := by
  have quoteNotBare : ¬ IsBare '"' := fun bare => bare.not_mem (by simp)
  rcases isBare_of_isScalar xScalar with ⟨body, isBody, rfl⟩ | ⟨xNonempty, xBare⟩
  · rcases isBare_of_isScalar yScalar with ⟨body', isBody', rfl⟩ | ⟨yNonempty, yBare⟩
    · simp only [List.cons_append, List.append_assoc, List.cons.injEq, true_and, List.nil_append] at same
      obtain ⟨rfl, rests⟩ := isBody.eq_of_append isBody' same
      exact ⟨rfl, rests⟩
    · obtain ⟨c, cs, rfl⟩ := List.exists_cons_of_ne_nil yNonempty
      simp only [List.cons_append, List.cons.injEq] at same
      exact absurd (same.1 ▸ yBare c List.mem_cons_self) quoteNotBare
  · rcases isBare_of_isScalar yScalar with ⟨body', isBody', rfl⟩ | ⟨yNonempty, yBare⟩
    · obtain ⟨c, cs, rfl⟩ := List.exists_cons_of_ne_nil xNonempty
      simp only [List.cons_append, List.cons.injEq] at same
      exact absurd (same.1 ▸ xBare c List.mem_cons_self) quoteNotBare
    · exact eq_of_append_run xBare yBare ends ends' same

theorem Token.eq_of_append {t u : Token} {rest rest' : List Char} (ends : t.isScalar = true → EndsBare rest)
    (ends' : u.isScalar = true → EndsBare rest') (same : t.text ++ rest = u.text ++ rest') :
    t = u ∧ rest = rest' := by
  obtain ⟨c, cs, tText, -, tMark⟩ := t.exists_first
  obtain ⟨d, ds, uText, -, uMark⟩ := u.exists_first
  have first : c = d := by
    rw [tText, uText] at same
    exact (List.cons.inj same).1
  subst first
  rw [tMark] at uMark
  cases tForm : t.isScalar with
  | true =>
    cases uForm : u.isScalar with
    | false => simp [tForm, uForm] at uMark
    | true =>
      cases t with
      | opening | closing | colon | comma => cases tForm
      | scalar x =>
        cases u with
        | opening | closing | colon | comma => cases uForm
        | scalar y =>
          obtain ⟨x, xScalar⟩ := x
          obtain ⟨y, yScalar⟩ := y
          obtain ⟨texts, rests⟩ := xScalar.eq_of_append yScalar (ends tForm) (ends' uForm) same
          exact ⟨by simpa using texts, rests⟩
  | false =>
    cases uForm : u.isScalar with
    | true => simp [tForm, uForm] at uMark
    | false =>
      obtain rfl : t = u := by simpa [tForm, uForm] using uMark
      exact ⟨rfl, List.append_cancel_left same⟩

/-! ## Tokens of a document -/

def startsScalar (ts : List Token) : Bool := ts.head?.any Token.isScalar

/-- No two scalars stand side by side. -/
def Apart : List Token → Prop
  | [] => True
  | t :: ts => (t.isScalar = true → startsScalar ts = false) ∧ Apart ts

theorem endsBare_of_spells {ts : List Token} {text : List Char} (spells : Spells AreBlanks AreBlanks ts text)
    (notScalar : startsScalar ts = false) : EndsBare text := by
  intro c member
  cases spells with
  | done areBlanks => exact not_isBare_of_isSpace (areBlanks c (List.mem_of_mem_head? member))
  | @token g rest t ts areBlanks _ =>
    cases g with
    | cons d g =>
      obtain rfl : d = c := by simpa using member
      exact not_isBare_of_isSpace (areBlanks d List.mem_cons_self)
    | nil =>
      obtain ⟨d, text, mark⟩ := Token.exists_mark (show t.isScalar = false from notScalar)
      obtain rfl : d = c := by simpa [text] using member
      intro bare
      rw [bare.ofMark?_eq_none] at mark
      cases mark

theorem Token.head_not_isSpace (t : Token) (rest : List Char) :
    ∀ c ∈ (t.text ++ rest).head?, ¬ isSpace c = true := by
  obtain ⟨d, ds, text, visible, -⟩ := t.exists_first
  intro c member space
  obtain rfl : d = c := by simpa [text] using member
  rw [isBlank_of_isSpace space] at visible
  cases visible

theorem not_areBlanks_of_token {g rest : List Char} {t : Token} : ¬ AreBlanks (g ++ t.text ++ rest) := by
  intro areBlanks
  obtain ⟨c, cs, text, visible, -⟩ := t.exists_first
  rw [isBlank_of_isSpace (areBlanks c (by simp [text]))] at visible
  cases visible

/-- A text with blanks for gaps spells one list of tokens at most, if scalars are kept apart. -/
theorem Spells.unique {ts us : List Token} {text : List Char} (tsApart : Apart ts) (usApart : Apart us)
    (first : Spells AreBlanks AreBlanks ts text) (second : Spells AreBlanks AreBlanks us text) : ts = us := by
  induction first generalizing us with
  | done areBlanks =>
    cases second with
    | done => rfl
    | token => exact absurd areBlanks not_areBlanks_of_token
  | @token g rest t ts areBlanks restSpells inductionHypothesis =>
    generalize whole : g ++ t.text ++ rest = text at second
    cases second with
    | done areBlanks' => exact absurd (whole ▸ areBlanks') not_areBlanks_of_token
    | @token g' rest' u us areBlanks' restSpells' =>
      rw [List.append_assoc, List.append_assoc] at whole
      -- The gap ends at the first visible character, and there the tokens are the same.
      obtain ⟨-, whole⟩ := eq_of_append_run areBlanks areBlanks' (t.head_not_isSpace rest)
        (u.head_not_isSpace rest') whole
      obtain ⟨rfl, rfl⟩ := Token.eq_of_append
        (fun isScalar => endsBare_of_spells restSpells (tsApart.1 isScalar))
        (fun isScalar => endsBare_of_spells restSpells' (usApart.1 isScalar)) whole
      rw [inductionHypothesis tsApart.2 usApart.2 restSpells']

mutual

theorem apart_tokens (document : Document) {rest : List Token} (other : startsScalar rest = false)
    (apart : Apart rest) : Apart (document.tokens ++ rest) := by
  cases document with
  | scalar s => exact ⟨fun _ => other, apart⟩
  | array items =>
    have inside : Apart (itemTokens items ++ .closing .square :: rest) :=
      apart_itemTokens items rfl ⟨by simp [Token.isScalar], apart⟩
    simpa [Document.tokens, Apart, Token.isScalar] using inside
  | object members =>
    have inside : Apart (memberTokens members ++ .closing .curly :: rest) :=
      apart_memberTokens members rfl ⟨by simp [Token.isScalar], apart⟩
    simpa [Document.tokens, Apart, Token.isScalar] using inside

theorem apart_itemTokens (items : List Document) {rest : List Token} (other : startsScalar rest = false)
    (apart : Apart rest) : Apart (itemTokens items ++ rest) := by
  match items with
  | [] => exact apart
  | [d] => exact apart_tokens d other apart
  | d :: e :: ds =>
    have later : Apart (.comma :: (itemTokens (e :: ds) ++ rest)) :=
      ⟨by simp [Token.isScalar], apart_itemTokens (e :: ds) other apart⟩
    simpa [itemTokens] using apart_tokens d rfl later

theorem apart_memberTokens (members : List (Name × Document)) {rest : List Token}
    (other : startsScalar rest = false) (apart : Apart rest) : Apart (memberTokens members ++ rest) := by
  match members with
  | [] => exact apart
  | [(name, d)] =>
    simpa [memberTokens, Apart, Token.isScalar, startsScalar] using apart_tokens d other apart
  | (name, d) :: m :: ms =>
    have later : Apart (.comma :: (memberTokens (m :: ms) ++ rest)) :=
      ⟨by simp [Token.isScalar], apart_memberTokens (m :: ms) other apart⟩
    simpa [memberTokens, Apart, Token.isScalar, startsScalar] using apart_tokens d rfl later

end

/-- A text is strict JSON for one list of tokens at most. -/
theorem Strict.tokens_unique {document other : Document} {text : String} (first : Strict document text)
    (second : Strict other text) : document.tokens = other.tokens := by
  have apart (d : Document) : Apart d.tokens := by
    have alone : Apart (d.tokens ++ []) := apart_tokens d rfl trivial
    rwa [List.append_nil] at alone
  exact Spells.unique (apart document) (apart other) first second

end CallAtlas.Json
