import Mathlib.Tactic.ByContra
import Mathlib.Tactic.SplitIfs
import Wiring.Toml.Quoted

/-! A string literal is read back as the text it was written for, in each of the four styles. What
follows it must not go on with quotes, of which some would still belong to the text; in a document
this is the end of the line. -/
namespace Wiring.Toml

variable {c : Char} {cs tail : List Char}

@[simp]
theorem followed_some (c : Char) (chars rest : List Char) :
    followed c (some (chars, rest)) = some (c :: chars, rest) := rfl

/-! Escapes -/

theorem digitValue?_upperHexDigit (n : Nat) (h : n < 16) :
    Text.digitValue? 16 (upperHexDigit n) = some n := by
  have hall : ∀ n < 16, Text.digitValue? 16 (upperHexDigit n) = some n := by decide
  exact hall n h

theorem scalar?_toNat (c : Char) : scalar? c.toNat = some c := by
  have hvalid : c.toNat.isValidChar := c.valid
  rw [scalar?, if_pos hvalid, Char.ofNat_toNat]

theorem toNat_lt_of_not_isPrintable (h : ¬ isPrintable c = true) : c.toNat < 256 := by
  by_contra hlarge
  refine h ?_
  simp only [isPrintable, Bool.or_eq_true, Bool.and_eq_true, decide_eq_true_eq, bne_iff_ne]
  exact .inr ⟨by omega, by omega⟩

/-- A character is written as it is, by the letter of a short escape, or by its number. -/
theorem escapeChar_cases (multiline : Bool) (c : Char) :
    (escapeChar multiline c = [c] ∧ c ≠ '\\' ∧ c ≠ '\r' ∧
      ((multiline = true ∧ c = '\n') ∨ isPrintable c = true)) ∨
    (∃ letter, escapeChar multiline c = ['\\', letter] ∧ shortEscape? letter = some c ∧
      startsWithGap [letter] = false) ∨
    (escapeChar multiline c =
      ['\\', 'u', '0', '0', upperHexDigit (c.toNat / 16), upperHexDigit (c.toNat % 16)] ∧
      c.toNat < 256) := by
  unfold escapeChar
  split_ifs with hbackspace htab hbreak hmultiline hfeed hreturn hbackslash hprintable
  · exact .inr (.inl ⟨'b', rfl, by rw [hbackspace]; rfl, rfl⟩)
  · exact .inr (.inl ⟨'t', rfl, by rw [htab]; rfl, rfl⟩)
  · exact .inl ⟨by rw [hbreak], by simp [hbreak], by simp [hbreak], .inl ⟨hmultiline, hbreak⟩⟩
  · exact .inr (.inl ⟨'n', rfl, by rw [hbreak]; rfl, rfl⟩)
  · exact .inr (.inl ⟨'f', rfl, by rw [hfeed]; rfl, rfl⟩)
  · exact .inr (.inl ⟨'r', rfl, by rw [hreturn]; rfl, rfl⟩)
  · exact .inr (.inl ⟨'\\', rfl, by rw [hbackslash]; rfl, rfl⟩)
  · exact .inl ⟨rfl, hbackslash, hreturn, .inr hprintable⟩
  · exact .inr (.inr ⟨rfl, toNat_lt_of_not_isPrintable hprintable⟩)

theorem ne_u_of_shortEscape? {letter : Char} (h : shortEscape? letter = some c) :
    letter ≠ 'u' ∧ letter ≠ 'U' := by
  constructor <;> rintro rfl <;> exact nomatch h

/-- The two digits in which a small number is written are read as the character with the number. -/
theorem basic?_digits (hsmall : c.toNat < 256) (rest : List Char) :
    basic? (.digits 2 0) (upperHexDigit (c.toNat / 16) :: upperHexDigit (c.toNat % 16) :: rest) =
      followed c (basic? .outside rest) := by
  have hhigh := digitValue?_upperHexDigit (c.toNat / 16) (by omega)
  have hlow := digitValue?_upperHexDigit (c.toNat % 16) (by omega)
  have hvalue : (0 * 16 + c.toNat / 16) * 16 + c.toNat % 16 = c.toNat := by omega
  rw [basic?, hhigh]
  change basic? (.digits 1 (0 * 16 + c.toNat / 16)) _ = _
  rw [basic?, hlow]
  simp only [Nat.le_refl, if_true, hvalue, scalar?_toNat]

/-- What has been escaped is read as the one character it stands for. -/
theorem basic?_escapeChar (hquote : c ≠ '"') (rest : List Char) :
    basic? .outside (escapeChar false c ++ rest) = followed c (basic? .outside rest) := by
  rcases escapeChar_cases false c with ⟨hwritten, hbackslash, _, hbreak | hprintable⟩ |
    ⟨letter, hwritten, hletter, _⟩ | ⟨hwritten, hsmall⟩
  · exact nomatch hbreak.1
  · rw [hwritten, List.singleton_append, basic?, if_neg hquote, if_neg hbackslash,
      if_pos hprintable]
  · obtain ⟨hu, hU⟩ := ne_u_of_shortEscape? hletter
    rw [hwritten]
    change basic? .opened (letter :: rest) = _
    rw [basic?, if_neg hu, if_neg hU, hletter]
  · rw [hwritten]
    exact basic?_digits hsmall rest

theorem multiBasic?_digits (hsmall : c.toNat < 256) (rest : List Char) :
    multiBasic? (.digits 2 0)
        (upperHexDigit (c.toNat / 16) :: upperHexDigit (c.toNat % 16) :: rest) =
      followed c (multiBasic? .outside rest) := by
  have hhigh := digitValue?_upperHexDigit (c.toNat / 16) (by omega)
  have hlow := digitValue?_upperHexDigit (c.toNat % 16) (by omega)
  have hvalue : (0 * 16 + c.toNat / 16) * 16 + c.toNat % 16 = c.toNat := by omega
  rw [multiBasic?, hhigh]
  change multiBasic? (.digits 1 (0 * 16 + c.toNat / 16)) _ = _
  rw [multiBasic?, hlow]
  simp only [Nat.le_refl, if_true, hvalue, scalar?_toNat]

theorem multiBasic?_escapeChar (hquote : c ≠ '"') (rest : List Char) :
    multiBasic? .outside (escapeChar true c ++ rest) =
      followed c (multiBasic? .outside rest) := by
  rcases escapeChar_cases true c with ⟨hwritten, hbackslash, hreturn, hplain⟩ |
    ⟨letter, hwritten, hletter, hgap⟩ | ⟨hwritten, hsmall⟩
  · have hread : (decide (c = '\n') || isPrintable c) = true := by
      simpa using hplain.imp_left And.right
    rw [hwritten, List.singleton_append, multiBasic?, if_neg hquote, if_neg hbackslash,
      if_neg hreturn, if_pos hread]
  · obtain ⟨hu, hU⟩ := ne_u_of_shortEscape? hletter
    have hopened : startsWithGap (letter :: rest) = false := hgap
    rw [hwritten]
    change multiBasic? (if startsWithGap (letter :: rest) then .gap false else .opened)
      (letter :: rest) = _
    rw [hopened]
    change multiBasic? .opened (letter :: rest) = _
    rw [multiBasic?, if_neg hu, if_neg hU, hletter]
  · rw [hwritten]
    exact multiBasic?_digits hsmall rest

theorem startsWithTwo_of_head?_ne {quote : Char} (h : cs.head? ≠ some quote) :
    startsWithTwo quote cs = false := by
  cases cs with
  | nil => rfl
  | cons c rest =>
    have hc : quote ≠ c := fun heq => h (by rw [heq, List.head?_cons])
    simp [startsWithTwo, List.isPrefixOf, hc]

theorem startsWithTwo_cons {quote : Char} (c : Char) (h : cs.head? ≠ some quote) :
    startsWithTwo quote (c :: cs) = false := by
  cases cs with
  | nil => simp [startsWithTwo, List.isPrefixOf]
  | cons d rest =>
    have hd : quote ≠ d := fun heq => h (by rw [heq, List.head?_cons])
    simp [startsWithTwo, List.isPrefixOf, hd]

theorem startsWithTwo_append {quote : Char} (hcs : cs.head? ≠ some quote)
    (htail : tail.head? ≠ some quote) : startsWithTwo quote (cs ++ quote :: tail) = false := by
  cases cs with
  | nil => exact startsWithTwo_cons quote htail
  | cons c rest => exact startsWithTwo_of_head?_ne hcs

section Escape

variable {multiline : Bool} {allowed bare : Nat}

theorem escape_of_ne (hquote : c ≠ '"') (rest : List Char) :
    escape multiline allowed bare (c :: rest) =
      escapeChar multiline c ++ escape multiline allowed 0 rest := by
  rw [escape, if_neg hquote]

theorem escape_bare (h : bare < allowed) (rest : List Char) :
    escape multiline allowed bare ('"' :: rest) =
      '"' :: escape multiline allowed (bare + 1) rest := by
  rw [escape, if_pos rfl, if_pos h]

theorem escape_full (h : ¬ bare < allowed) (rest : List Char) :
    escape multiline allowed bare ('"' :: rest) =
      '\\' :: '"' :: escape multiline allowed 0 rest := by
  rw [escape, if_pos rfl, if_neg h]

theorem exists_escapeChar_eq_cons (multiline : Bool) (hquote : c ≠ '"') :
    ∃ first others, escapeChar multiline c = first :: others ∧ first ≠ '"' := by
  rcases escapeChar_cases multiline c with ⟨hwritten, _⟩ | ⟨letter, hwritten, _⟩ | ⟨hwritten, _⟩
  · exact ⟨c, [], hwritten, hquote⟩
  · exact ⟨_, _, hwritten, by decide⟩
  · exact ⟨_, _, hwritten, by decide⟩

theorem head?_escape_ne (h : ¬ bare < allowed) (cs : List Char) :
    (escape multiline allowed bare cs).head? ≠ some '"' := by
  cases cs with
  | nil => exact nofun
  | cons c rest =>
    by_cases hquote : c = '"'
    · rw [hquote, escape_full h]
      simp
    · obtain ⟨first, others, hwritten, hfirst⟩ :=
        exists_escapeChar_eq_cons multiline hquote
      rw [escape_of_ne hquote, hwritten]
      simpa using hfirst

/-- Once one quote stands bare, at most one more does. -/
theorem startsWithTwo_escape (multiline : Bool) (h : 0 < bare) (cs : List Char) :
    startsWithTwo '"' (escape multiline 2 bare cs) = false := by
  by_cases hbare : bare < 2
  · cases cs with
    | nil => rfl
    | cons c rest =>
      by_cases hquote : c = '"'
      · rw [hquote, escape_bare hbare]
        exact startsWithTwo_cons _ (head?_escape_ne (by omega) rest)
      · obtain ⟨first, others, hwritten, hfirst⟩ :=
          exists_escapeChar_eq_cons multiline hquote
        rw [escape_of_ne hquote, hwritten]
        exact startsWithTwo_of_head?_ne (by simpa using hfirst)
  · exact startsWithTwo_of_head?_ne (head?_escape_ne hbare cs)

theorem escape_eq_nil (h : escape multiline allowed bare cs = []) : cs = [] := by
  cases cs with
  | nil => rfl
  | cons c rest =>
    by_cases hquote : c = '"'
    · rw [hquote, escape, if_pos rfl] at h
      split_ifs at h
    · obtain ⟨first, others, hwritten, _⟩ :=
        exists_escapeChar_eq_cons multiline hquote
      rw [escape_of_ne hquote, hwritten] at h
      exact nomatch h

theorem escape_eq_quote (h : escape multiline allowed bare cs = ['"']) : cs = ['"'] := by
  cases cs with
  | nil => exact nomatch h
  | cons c rest =>
    by_cases hquote : c = '"'
    · rw [hquote, escape, if_pos rfl] at h
      split_ifs at h
      · rw [hquote, escape_eq_nil (List.cons.inj h).2]
      · exact nomatch h
    · obtain ⟨first, others, hwritten, hfirst⟩ :=
        exists_escapeChar_eq_cons multiline hquote
      rw [escape_of_ne hquote, hwritten] at h
      exact absurd (List.cons.inj h).1 hfirst

end Escape

/-! The four styles -/

theorem basic?_escape (cs tail : List Char) :
    basic? .outside (escape false 0 0 cs ++ '"' :: tail) = some (cs, tail) := by
  induction cs with
  | nil => rfl
  | cons c rest ih =>
    by_cases hquote : c = '"'
    · rw [hquote, escape_full (Nat.lt_irrefl 0)]
      change followed '"' (basic? .outside (escape false 0 0 rest ++ '"' :: tail)) = _
      rw [ih, followed_some]
    · rw [escape_of_ne hquote, List.append_assoc, basic?_escapeChar hquote, ih, followed_some]

theorem literal?_append {cs : List Char} (h : ∀ c ∈ cs, c ≠ '\'' ∧ isPrintable c = true)
    (tail : List Char) : literal? (cs ++ '\'' :: tail) = some (cs, tail) := by
  induction cs with
  | nil => rfl
  | cons c rest ih =>
    obtain ⟨⟨hquote, hprintable⟩, hrest⟩ := List.forall_mem_cons.mp h
    rw [List.cons_append, literal?, if_neg hquote, if_pos hprintable, ih hrest, followed_some]

section Closing

variable {quote : Char} {body : List Char}

theorem closing_none (htail : tail.head? ≠ some quote) : closing quote tail = ([], tail) := by
  match tail with
  | [] => rfl
  | [a] => simpa [closing] using htail
  | a :: b :: rest =>
    have ha : a ≠ quote := by simpa using htail
    rw [closing, if_neg ha]

theorem closing_one (htail : tail.head? ≠ some quote) :
    closing quote (quote :: tail) = ([quote], tail) := by
  match tail with
  | [] => simp [closing]
  | b :: rest =>
    have hb : b ≠ quote := by simpa using htail
    rw [closing, if_pos rfl, if_neg hb]

theorem closing_two (quote : Char) (tail : List Char) :
    closing quote (quote :: quote :: tail) = ([quote, quote], tail) := by
  rw [closing, if_pos rfl, if_pos rfl]

/-- Where two quotes come first in a text that does not start with two, and the closing ones after
it, the text is no more than one quote. -/
theorem eq_nil_or_of_startsWithTwo_append (hbody : startsWithTwo quote body = false)
    (h : startsWithTwo quote (body ++ quote :: quote :: quote :: tail) = true) :
    body = [] ∨ body = [quote] := by
  match body with
  | [] => exact .inl rfl
  | [c] =>
    have hc : quote = c := by simpa [startsWithTwo] using h
    exact .inr (by rw [hc])
  | c :: d :: rest =>
    have hsame : startsWithTwo quote (c :: d :: rest ++ quote :: quote :: quote :: tail) =
        startsWithTwo quote (c :: d :: rest) := rfl
    rw [hsame, hbody] at h
    contradiction

end Closing

/-- Up to two quotes in a row stand bare, so the three that close the literal are told apart from
those of the text. -/
theorem multiBasic?_escape (htail : tail.head? ≠ some '"') (bare : Nat) (cs : List Char) :
    multiBasic? .outside (escape true 2 bare cs ++ '"' :: '"' :: '"' :: tail) =
      some (cs, tail) := by
  induction cs generalizing bare with
  | nil => exact congrArg some (closing_none htail)
  | cons c rest ih =>
    by_cases hquote : c = '"'
    · subst hquote
      by_cases hbare : bare < 2
      · rw [escape_bare hbare, List.cons_append, multiBasic?, if_pos rfl]
        -- Two more quotes close the literal, and then those of the text are among the closing ones.
        split
        · rename_i htwo
          have hbody := startsWithTwo_escape true bare.succ_pos rest
          rcases eq_nil_or_of_startsWithTwo_append hbody htwo with hnone | hone
          · rw [hnone, escape_eq_nil hnone]
            exact congrArg some (closing_one htail)
          · rw [hone, escape_eq_quote hone]
            exact congrArg some (closing_two '"' tail)
        · rw [ih, followed_some]
      · rw [escape_full hbare]
        change followed '"' (multiBasic? .outside (escape true 2 0 rest ++ _)) = _
        rw [ih, followed_some]
    · rw [escape_of_ne hquote, List.append_assoc, multiBasic?_escapeChar hquote, ih,
        followed_some]

theorem le_longestRun (c : Char) (current : Nat) (cs : List Char) :
    current ≤ longestRun c current cs := by
  induction cs generalizing current with
  | nil => exact Nat.le_refl _
  | cons d rest ih =>
    rw [longestRun]
    split_ifs
    · exact Nat.le_trans (Nat.le_succ _) (ih _)
    · exact Nat.le_max_left _ _

theorem startsWithTwo_of_longestRun {quote : Char} {run : Nat}
    (h : longestRun quote (run + 1) cs ≤ 2) : startsWithTwo quote cs = false := by
  match cs with
  | [] => rfl
  | [c] => simp [startsWithTwo, List.isPrefixOf]
  | c :: d :: rest =>
    by_contra htwo
    obtain ⟨rfl, rfl⟩ : quote = c ∧ quote = d := by
      simpa [startsWithTwo, List.isPrefixOf] using htwo
    rw [longestRun, if_pos rfl, longestRun, if_pos rfl] at h
    have := le_longestRun quote (run + 1 + 1 + 1) rest
    omega

/-- With no more than two quotes in a row, the text needs no escape. -/
theorem multiLiteral?_append (htail : tail.head? ≠ some '\'') {run : Nat} {cs : List Char}
    (hrun : longestRun '\'' run cs ≤ 2) (hcontrol : ∀ c ∈ cs, isControl c = false) :
    multiLiteral? (cs ++ '\'' :: '\'' :: '\'' :: tail) = some (cs, tail) := by
  induction cs generalizing run with
  | nil => exact congrArg some (closing_none htail)
  | cons c rest ih =>
    obtain ⟨hc, hrest⟩ := List.forall_mem_cons.mp hcontrol
    rw [longestRun] at hrun
    rw [List.cons_append, multiLiteral?]
    by_cases hquote : c = '\''
    · subst hquote
      rw [if_pos rfl] at hrun ⊢
      have hbody := startsWithTwo_of_longestRun hrun
      split
      · rename_i htwo
        rcases eq_nil_or_of_startsWithTwo_append hbody htwo with hnone | hone
        · rw [hnone]
          exact congrArg some (closing_one htail)
        · rw [hone]
          exact congrArg some (closing_two '\'' tail)
      · rw [ih hrun hrest, followed_some]
    · have hreturn : c ≠ '\r' := by
        rintro rfl
        exact nomatch hc
      have hread : (decide (c = '\n') || isPrintable c) = true := by
        cases hprintable : isPrintable c with
        | true => exact Bool.or_true _
        | false => simpa [isControl, hprintable] using hc
      rw [if_neg hquote] at hrun ⊢
      rw [if_neg hreturn, if_pos hread,
        ih (Nat.le_trans (Nat.le_max_right run _) hrun) hrest, followed_some]

/-! What decides the style -/

theorem longestRun_eq_zero (h : longestRun c 0 cs = 0) : c ∉ cs := by
  induction cs with
  | nil => exact List.not_mem_nil
  | cons d rest ih =>
    rw [longestRun] at h
    split_ifs at h with hd
    · have := le_longestRun c (0 + 1) rest
      omega
    · rw [List.mem_cons, not_or]
      exact ⟨fun heq => hd heq.symm, ih (by omega)⟩

theorem Traits.of_style_eq_literal {t : Traits} (h : t.style = .literal) :
    t.control = false ∧ t.singles = 0 ∧ t.lineBreak = false := by
  unfold style at h
  split_ifs at h with hbasic hliteral
  simpa [and_assoc] using hliteral

theorem Traits.of_style_eq_multiLiteral {t : Traits} (h : t.style = .multiLiteral) :
    t.control = false ∧ t.singles ≤ 2 := by
  unfold style at h
  split_ifs at h with hbasic hliteral hmultiBasic hmultiLiteral
  simpa using hmultiLiteral

theorem isControl_eq_false_of_traits (h : (traits cs).control = false) :
    ∀ c ∈ cs, isControl c = false := by
  simpa [traits] using h

theorem isPrintable_of_traits (hcontrol : (traits cs).control = false)
    (hbreak : (traits cs).lineBreak = false) : ∀ c ∈ cs, isPrintable c = true := by
  intro c hc
  have hne : c ≠ '\n' := by
    rintro rfl
    have hcontains : (traits cs).lineBreak = true := List.contains_iff_mem.mpr hc
    rw [hbreak] at hcontains
    contradiction
  simpa [isControl, hne] using isControl_eq_false_of_traits hcontrol c hc

/-! Literals of any style -/

theorem quoted?_double {rest : List Char} (h : startsWithTwo '"' rest = false)
    (hread : basic? .outside rest = some (cs, tail)) :
    quoted? ('"' :: rest) = some (String.ofList cs, tail) := by
  unfold quoted?
  split
  · rename_i heq
    obtain rfl := (List.cons.inj heq).2
    simp [startsWithTwo] at h
  · rename_i heq
    obtain rfl := (List.cons.inj heq).2
    rw [hread]
    rfl
  · rename_i heq
    exact absurd (List.cons.inj heq).1 (by decide)
  · rename_i heq
    exact absurd (List.cons.inj heq).1 (by decide)
  · rename_i hnone _ _
    exact absurd rfl (hnone rest)

theorem quoted?_single {rest : List Char} (h : startsWithTwo '\'' rest = false)
    (hread : literal? rest = some (cs, tail)) :
    quoted? ('\'' :: rest) = some (String.ofList cs, tail) := by
  unfold quoted?
  split
  · rename_i heq
    exact absurd (List.cons.inj heq).1 (by decide)
  · rename_i heq
    exact absurd (List.cons.inj heq).1 (by decide)
  · rename_i heq
    obtain rfl := (List.cons.inj heq).2
    simp [startsWithTwo] at h
  · rename_i heq
    obtain rfl := (List.cons.inj heq).2
    rw [hread]
    rfl
  · rename_i hnone
    exact absurd rfl (hnone rest)

/-- The text of a literal is read back, and what follows is left. -/
theorem quoted?_quote (s : String) {tail : List Char} (hdouble : tail.head? ≠ some '"')
    (hsingle : tail.head? ≠ some '\'') : quoted? ((quote s).toList ++ tail) = some (s, tail) := by
  unfold quote
  rw [String.toList_ofList]
  generalize hcs : s.toList = cs
  have hs : String.ofList cs = s := by rw [← hcs, String.ofList_toList]
  cases hstyle : (traits cs).style with
  | basic =>
    have hshape : write .basic cs ++ tail = '"' :: (escape false 0 0 cs ++ '"' :: tail) := by
      simp [write]
    have hstart : startsWithTwo '"' (escape false 0 0 cs ++ '"' :: tail) = false :=
      startsWithTwo_append (head?_escape_ne (Nat.lt_irrefl 0) cs) hdouble
    rw [hshape, quoted?_double hstart (basic?_escape cs tail), hs]
  | literal =>
    obtain ⟨hcontrol, hsingles, hbreak⟩ := Traits.of_style_eq_literal hstyle
    have hshape : write .literal cs ++ tail = '\'' :: (cs ++ '\'' :: tail) := by
      simp [write]
    have hchars : ∀ c ∈ cs, c ≠ '\'' ∧ isPrintable c = true := by
      intro c hc
      refine ⟨?_, isPrintable_of_traits hcontrol hbreak c hc⟩
      rintro rfl
      exact longestRun_eq_zero hsingles hc
    have hstart : startsWithTwo '\'' (cs ++ '\'' :: tail) = false :=
      startsWithTwo_append (fun h => (hchars _ (List.mem_of_mem_head? h)).1 rfl) hsingle
    rw [hshape, quoted?_single hstart (literal?_append hchars tail), hs]
  | multiBasic =>
    have hshape : write .multiBasic cs ++ tail =
        '"' :: '"' :: '"' :: '\n' :: (escape true 2 0 cs ++ '"' :: '"' :: '"' :: tail) := by
      simp [write]
    have hread := multiBasic?_escape hdouble 0 cs
    rw [hshape]
    simp only [quoted?, afterOpening, hread, Option.map_some, hs]
  | multiLiteral =>
    obtain ⟨hcontrol, hsingles⟩ := Traits.of_style_eq_multiLiteral hstyle
    have hshape : write .multiLiteral cs ++ tail =
        '\'' :: '\'' :: '\'' :: '\n' :: (cs ++ '\'' :: '\'' :: '\'' :: tail) := by
      simp [write]
    have hread := multiLiteral?_append hsingle hsingles (isControl_eq_false_of_traits hcontrol)
    rw [hshape]
    simp only [quoted?, afterOpening, hread, Option.map_some, hs]

example : quote "\"\"\"\x07" = "\"\\\"\\\"\\\"\\u0007\"" := by decide +kernel

end Wiring.Toml
