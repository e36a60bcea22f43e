/-
Which comments, strings, addresses and brackets are open in a sheet.

Braces close a block only where nothing else is open: not in a comment, in a string, in the
brackets of an address `url(…)` or behind a backslash, and not before the brackets that were
opened in the block are closed.  A closing bracket that does not fit the last open one is an
ordinary character.

* `Scanner`, `Scanner.step`, `Scanner.run` — what is open, and how characters change it;
* `Scanner.isAtRest` — nothing is open;
* `Settles` — a text that opens nothing if nothing is open before it;
* `IsClosed` — a text that leaves nothing open;
* `isClosed_of_isBalanced` — declarations with balanced brackets and without `/*` are closed;
* `Scanner.not_isAtRest_step` — what declarations leave open stays open over braces and gaps.
-/
import UtilityCss.Proofs.CompiledTokens
import UtilityCss.Proofs.Brackets

namespace UtilityCss

/-! ### The scanner -/

/-- What the next character is part of. -/
inductive ScanMode where
  /-- Nothing in particular; `name` is the name that ends before the next character. -/
  | outside (name : Text)
  /-- What is written after a slash. -/
  | slash
  | comment
  /-- A comment, after a star. -/
  | star
  | string (quote : CodePoint)
  /-- An address without quotes, of which more than blanks was read or not. -/
  | address (begun : Bool)
  deriving DecidableEq

/-- Whether no comment, string or address is open. -/
def ScanMode.isOutside : ScanMode → Bool
  | outside _ | slash => true
  | _ => false

/-- What is open at a place of a sheet. -/
structure Scanner where
  mode : ScanMode
  /-- Whether a backslash stands before the next character. -/
  escaped : Bool
  /-- The brackets that close the open ones, the next one first. -/
  closers : List CodePoint
  deriving DecidableEq

/-- A double or a single quote. -/
def isQuote (c : CodePoint) : Bool :=
  c = '"' || c = .ofNat 0x27

/-- A blank or a line feed. -/
def isGap (c : CodePoint) : Bool :=
  c = ' ' || c = '\n'

/-- The bracket that closes one. -/
def closer? (c : CodePoint) : Option CodePoint :=
  if c = '(' then some ')'
  else if c = '[' then some ']'
  else if c = '\x7b' then some '\x7d'
  else none

namespace Scanner

/-- Nothing is open, and no name ends here. -/
def start : Scanner :=
  ⟨.outside [], false, []⟩

/-- A character that is in no comment, string or address. -/
def stepOutside (name : Text) (closers : List CodePoint) (c : CodePoint) : Scanner :=
  if c = '\\' then ⟨.outside (name ++ [c]), true, closers⟩
  else if c = '/' then ⟨.slash, false, closers⟩
  else if isQuote c then ⟨.string c, false, closers⟩
  -- after a number sign or an at sign, a name is not that of a function
  else if c = '#' ∨ c = '@' then ⟨.outside [c], false, closers⟩
  else if isNameChar c ∨ 0x80 ≤ c.toNat then ⟨.outside (name ++ [c]), false, closers⟩
  else if c = '(' ∧ name.map CodePoint.toUpper = "URL" then ⟨.address false, false, closers⟩
  else
    match closer? c with
    | some closer => ⟨.outside [], false, closer :: closers⟩
    | none => ⟨.outside [], false, if closers.head? = some c then closers.tail else closers⟩

/-- What is open after one more character. -/
def step (s : Scanner) (c : CodePoint) : Scanner :=
  if s.escaped then { s with escaped := false }
  else
    match s.mode with
    | .outside name => stepOutside name s.closers c
    | .slash => if c = '*' then { s with mode := .comment } else stepOutside [] s.closers c
    | .comment => if c = '*' then { s with mode := .star } else s
    | .star =>
      if c = '/' then { s with mode := .outside [] }
      else if c = '*' then s
      else { s with mode := .comment }
    | .string quote =>
      if c = '\\' then { s with escaped := true }
      -- a line feed ends a string that is not closed
      else if c = quote ∨ c = '\n' then { s with mode := .outside [] }
      else s
    | .address begun =>
      if c = ')' then { s with mode := .outside [] }
      else if c = '\\' then { s with mode := .address true, escaped := true }
      -- a quoted address is the argument of a function
      else if begun = false ∧ isQuote c then ⟨.string c, false, .char ')' :: s.closers⟩
      else { s with mode := .address (begun || !isGap c) }

/-- What is open after a text. -/
def run (s : Scanner) (t : Text) : Scanner :=
  t.foldl step s

/-- No comment, string or address and no bracket is open. -/
def isAtRest (s : Scanner) : Bool :=
  !s.escaped && s.closers.isEmpty && s.mode.isOutside

theorem run_append (s : Scanner) (t u : Text) : s.run (t ++ u) = (s.run t).run u :=
  List.foldl_append

theorem run_cons (s : Scanner) (c : CodePoint) (t : Text) : s.run (c :: t) = (s.step c).run t :=
  rfl

/-- A scanner that is outside goes on outside, unless a comment begins. -/
theorem step_of_isOutside {mode : ScanMode} (hmode : mode.isOutside = true) {c : CodePoint}
    (hstar : mode = .slash → c ≠ '*') (closers : List CodePoint) :
    ∃ name, step ⟨mode, false, closers⟩ c = stepOutside name closers c := by
  cases mode with
  | outside name => exact ⟨name, rfl⟩
  | slash => exact ⟨[], by simp [step, hstar rfl]⟩
  | _ => exact absurd hmode Bool.false_ne_true

theorem step_of_isAtRest {s : Scanner} (h : s.isAtRest = true) {c : CodePoint} (hc : c ≠ '*') :
    ∃ name, s.step c = stepOutside name [] c := by
  obtain ⟨mode, escaped, closers⟩ := s
  rw [isAtRest, Bool.and_eq_true, Bool.and_eq_true, Bool.not_eq_true', List.isEmpty_iff] at h
  obtain ⟨⟨rfl, rfl⟩, hmode⟩ := h
  exact step_of_isOutside hmode (fun _ => hc) []

end Scanner

/-! ### Texts that open nothing -/

/-- A text that opens nothing if nothing is open before it. -/
def Settles (t : Text) : Prop :=
  ∀ s : Scanner, s.isAtRest = true → (s.run t).isAtRest = true

/-- A text that leaves nothing open. -/
def IsClosed (t : Text) : Prop :=
  (Scanner.start.run t).isAtRest = true

instance (t : Text) : Decidable (IsClosed t) :=
  inferInstanceAs (Decidable (_ = true))

/-- The characters that open something where nothing is open. -/
def openers : List CodePoint :=
  ['\\', '*', '"', .ofNat 0x27, '(', '[', '\x7b']

theorem Settles.nil : Settles [] := fun _ h => h

theorem Settles.append {t u : Text} (ht : Settles t) (hu : Settles u) : Settles (t ++ u) := by
  intro s hs
  rw [Scanner.run_append]
  exact hu _ (ht s hs)

theorem settles_singleton {c : CodePoint} (h : c ∉ openers) : Settles [c] := by
  intro s hs
  simp only [openers, List.mem_cons, List.not_mem_nil, or_false, not_or] at h
  obtain ⟨hbackslash, hstar, hdouble, hsingle, hround, hsquare, hcurly⟩ := h
  obtain ⟨name, hstep⟩ := Scanner.step_of_isAtRest hs hstar
  have hquote : isQuote c = false := by simp [isQuote, hdouble, hsingle]
  have hcloser : closer? c = none := by rw [closer?, if_neg hround, if_neg hsquare, if_neg hcurly]
  rw [Scanner.run, List.foldl_cons, List.foldl_nil, hstep, Scanner.stepOutside, if_neg hbackslash,
    hquote, hcloser]
  simp only [hround, Bool.false_eq_true, if_false, false_and]
  split_ifs <;> rfl

theorem settles_of_forall {t : Text} (h : ∀ c ∈ t, c ∉ openers) : Settles t := by
  induction t with
  | nil => exact .nil
  | cons c t ih =>
    obtain ⟨hc, ht⟩ := List.forall_mem_cons.mp h
    exact (settles_singleton hc).append (ih ht)

/-- A backslash takes the meaning from the character after it. -/
theorem settles_escaped (c : CodePoint) : Settles ['\\', c] := by
  intro s hs
  obtain ⟨name, hstep⟩ := Scanner.step_of_isAtRest hs (c := '\\') (by decide)
  rw [Scanner.run, List.foldl_cons, hstep]
  rfl

/-- A blank separates a text from what is written before it. -/
theorem settles_of_isClosed {t : Text} (h : IsClosed t) : Settles (.char ' ' :: t) := by
  intro s hs
  obtain ⟨name, hstep⟩ := Scanner.step_of_isAtRest hs (c := ' ') (by decide)
  rw [Scanner.run_cons, hstep]
  exact h

/-! ### Declarations -/

/-- The characters that open something else than a comment or a round bracket. -/
def strangers : List CodePoint :=
  ['\\', '"', .ofNat 0x27, '[', '\x7b']

theorem ne_of_not_mem_strangers {c : CodePoint} (h : c ∉ strangers) :
    c ≠ '\\' ∧ isQuote c = false ∧ c ≠ '[' ∧ c ≠ '\x7b' := by
  simp only [strangers, List.mem_cons, List.not_mem_nil, or_false, not_or] at h
  obtain ⟨hbackslash, hdouble, hsingle, hsquare, hcurly⟩ := h
  exact ⟨hbackslash, by simp [isQuote, hdouble, hsingle], hsquare, hcurly⟩

namespace Scanner

/-- The closing brackets of `left` round brackets. -/
abbrev rounds (left : Nat) : List CodePoint :=
  List.replicate left (.char ')')

theorem stepOutside_open (name : Text) (left : Nat) :
    stepOutside name (rounds left) (.char '(') =
      if name.map CodePoint.toUpper = "URL" then ⟨.address false, false, rounds left⟩
      else ⟨.outside [], false, rounds (left + 1)⟩ := by
  rw [stepOutside, if_neg (by decide), if_neg (by decide), if_neg (by decide), if_neg (by decide),
    if_neg (by decide)]
  by_cases h : name.map CodePoint.toUpper = "URL"
  · rw [if_pos ⟨rfl, h⟩, if_pos h]
  · rw [if_neg fun hand => h hand.2, if_neg h]
    rfl

theorem stepOutside_close (name : Text) (left : Nat) :
    stepOutside name (rounds left) (.char ')') = ⟨.outside [], false, rounds (left - 1)⟩ := by
  rw [stepOutside, if_neg (by decide), if_neg (by decide), if_neg (by decide), if_neg (by decide),
    if_neg (by decide), if_neg fun hand => absurd hand.1 (by decide)]
  cases left with
  | zero => rfl
  | succ left => rfl

theorem stepOutside_of_ne {c : CodePoint} (hc : c ∉ strangers) (hround : c ≠ '(' ∧ c ≠ ')')
    (name : Text) (left : Nat) : ∃ mode : ScanMode, mode.isOutside = true ∧
      stepOutside name (rounds left) c = ⟨mode, false, rounds left⟩ := by
  obtain ⟨hbackslash, hquote, hsquare, hcurly⟩ := ne_of_not_mem_strangers hc
  have hcloser : closer? c = none := by
    rw [closer?, if_neg hround.1, if_neg hsquare, if_neg hcurly]
  -- no bracket but a round one closes a round one
  have hhead : (rounds left).head? ≠ some c := by
    intro h
    exact hround.2 (List.eq_of_mem_replicate (List.mem_of_mem_head? h))
  rw [stepOutside, if_neg hbackslash, hquote, hcloser]
  simp only [hround.1, hhead, Bool.false_eq_true, if_false, false_and]
  split_ifs <;> exact ⟨_, rfl, rfl⟩

/-- At most `depth` round brackets are open, that of an address among them, and nothing
else. -/
def IsUnder (depth : Nat) (s : Scanner) : Prop :=
  s.escaped = false ∧ ∃ left, s.closers = rounds left ∧
    ((s.mode.isOutside = true ∧ left ≤ depth) ∨
      ((∃ begun, s.mode = .address begun) ∧ left + 1 ≤ depth))

theorem isUnder_start : IsUnder 0 start :=
  ⟨rfl, 0, rfl, .inl ⟨rfl, Nat.le_refl 0⟩⟩

theorem isAtRest_of_isUnder {s : Scanner} (h : IsUnder 0 s) : s.isAtRest = true := by
  obtain ⟨hescaped, left, hclosers, ⟨hmode, hleft⟩ | ⟨-, hleft⟩⟩ := h
  · obtain rfl := Nat.le_zero.mp hleft
    rw [isAtRest, hescaped, hclosers, hmode]
    rfl
  · exact absurd hleft (Nat.not_succ_le_zero left)

/-- Outside, the scanner counts at most the brackets that are open. -/
theorem isUnder_stepOutside {depth after left : Nat} {c : CodePoint} (hleft : left ≤ depth)
    (hc : c ∉ strangers) (hstep : Text.roundStep? depth c = some after) (name : Text) :
    IsUnder after (stepOutside name (rounds left) c) := by
  by_cases hopen : c = '('
  · subst hopen
    obtain rfl : depth + 1 = after := Option.some.inj hstep
    rw [stepOutside_open]
    split
    · exact ⟨rfl, left, rfl, .inr ⟨⟨_, rfl⟩, Nat.succ_le_succ hleft⟩⟩
    · exact ⟨rfl, left + 1, rfl, .inl ⟨rfl, Nat.succ_le_succ hleft⟩⟩
  by_cases hclose : c = ')'
  · subst hclose
    obtain rfl := Text.eq_sub_one_of_roundStep? hstep
    rw [stepOutside_close]
    exact ⟨rfl, left - 1, rfl, .inl ⟨rfl, Nat.sub_le_sub_right hleft 1⟩⟩
  · rw [Text.roundStep?_of_ne ⟨hopen, hclose⟩, Option.some.injEq] at hstep
    subst hstep
    obtain ⟨mode, hmode, hnext⟩ := stepOutside_of_ne hc ⟨hopen, hclose⟩ name left
    rw [hnext]
    exact ⟨rfl, left, rfl, .inl ⟨hmode, hleft⟩⟩

/-- In an address, brackets that are opened are not counted. -/
theorem isUnder_step_address {depth after left : Nat} {begun : Bool} {c : CodePoint}
    (hleft : left + 1 ≤ depth) (hc : c ∉ strangers)
    (hstep : Text.roundStep? depth c = some after) :
    IsUnder after (step ⟨.address begun, false, rounds left⟩ c) := by
  obtain ⟨hbackslash, hquote, -⟩ := ne_of_not_mem_strangers hc
  by_cases hclose : c = ')'
  · subst hclose
    obtain rfl := Text.eq_sub_one_of_roundStep? hstep
    exact ⟨rfl, left, rfl, .inl ⟨rfl, Nat.le_sub_one_of_lt hleft⟩⟩
  · have hafter : depth ≤ after := by
      rw [Text.roundStep?, if_neg hclose] at hstep
      split at hstep <;> rw [← Option.some.inj hstep]
      exact Nat.le_succ depth
    rw [step, if_neg (by simp)]
    simp only [if_neg hclose, if_neg hbackslash, hquote, Bool.false_eq_true, and_false, if_false]
    exact ⟨rfl, left, rfl, .inr ⟨⟨_, rfl⟩, Nat.le_trans hleft hafter⟩⟩

theorem isUnder_step {depth after : Nat} {s : Scanner} {c : CodePoint} (hs : IsUnder depth s)
    (hc : c ∉ strangers) (hstar : s.mode = .slash → c ≠ '*')
    (hstep : Text.roundStep? depth c = some after) : IsUnder after (s.step c) := by
  obtain ⟨mode, escaped, closers⟩ := s
  obtain ⟨rfl, left, rfl, ⟨hmode, hleft⟩ | ⟨⟨begun, rfl⟩, hleft⟩⟩ := hs
  · obtain ⟨name, hnext⟩ := step_of_isOutside hmode hstar (rounds left)
    rw [hnext]
    exact isUnder_stepOutside hleft hc hstep name
  · exact isUnder_step_address hleft hc hstep

theorem eq_slash_of_stepOutside {name : Text} {closers : List CodePoint} {c : CodePoint}
    (h : (stepOutside name closers c).mode = .slash) : c = '/' := by
  rw [stepOutside] at h
  by_contra hslash
  rw [if_neg hslash] at h
  split_ifs at h
  all_goals
    split at h <;> exact absurd h (by simp)

theorem eq_slash_of_step {depth : Nat} {s : Scanner} {c : CodePoint} (hs : IsUnder depth s)
    (hstar : s.mode = .slash → c ≠ '*') (h : (s.step c).mode = .slash) : c = '/' := by
  obtain ⟨mode, escaped, closers⟩ := s
  obtain ⟨rfl, left, rfl, ⟨hmode, -⟩ | ⟨⟨begun, rfl⟩, -⟩⟩ := hs
  · obtain ⟨name, hnext⟩ := step_of_isOutside hmode hstar (rounds left)
    rw [hnext] at h
    exact eq_slash_of_stepOutside h
  · rw [step, if_neg (by simp)] at h
    dsimp only at h
    split_ifs at h

/-- Without `/*`, the scanner counts at most the brackets that are open. -/
theorem isUnder_run {depth after : Nat} {s : Scanner} {t : Text} (hs : IsUnder depth s)
    (ht : ∀ c ∈ t, c ∉ strangers) (hcomment : ¬[.char '/', .char '*'] <:+: t)
    (hfront : s.mode = .slash → t.head? ≠ some (.char '*'))
    (hdepth : Text.roundDepth? depth t = some after) : IsUnder after (s.run t) := by
  induction t generalizing depth s with
  | nil => exact Option.some.inj hdepth ▸ hs
  | cons c t ih =>
    obtain ⟨hc, ht⟩ := List.forall_mem_cons.mp ht
    obtain ⟨hpair, hinfix⟩ := not_or.mp (mt List.infix_cons_iff.mpr hcomment)
    rw [Text.roundDepth?_cons, Option.bind_eq_some_iff] at hdepth
    obtain ⟨between, hstep, hrest⟩ := hdepth
    have hstar : s.mode = .slash → c ≠ '*' := fun hmode heq => hfront hmode (by rw [heq]; rfl)
    refine ih (isUnder_step hs hc hstar hstep) ht hinfix (fun hmode hhead => hpair ?_) hrest
    obtain ⟨rest, rfl⟩ := List.head?_eq_some_iff.mp hhead
    rw [eq_slash_of_step hs hstar hmode]
    exact List.prefix_append [.char '/', .char '*'] rest

/-! ### What stays open -/

/-- Neither an escape nor a string is open, and no other brackets than round ones. -/
def IsPlain (s : Scanner) : Prop :=
  s.escaped = false ∧ (∃ left, s.closers = rounds left) ∧ ∀ quote, s.mode ≠ .string quote

theorem isPlain_start : IsPlain start :=
  ⟨rfl, ⟨0, rfl⟩, by simp [start]⟩

theorem isPlain_stepOutside {c : CodePoint} (hc : c ∉ strangers) (name : Text) (left : Nat) :
    IsPlain (stepOutside name (rounds left) c) := by
  by_cases hopen : c = '('
  · rw [hopen, stepOutside_open]
    split
    · exact ⟨rfl, ⟨left, rfl⟩, by simp⟩
    · exact ⟨rfl, ⟨left + 1, rfl⟩, by simp⟩
  by_cases hclose : c = ')'
  · rw [hclose, stepOutside_close]
    exact ⟨rfl, ⟨left - 1, rfl⟩, by simp⟩
  · obtain ⟨mode, hmode, hnext⟩ := stepOutside_of_ne hc ⟨hopen, hclose⟩ name left
    rw [hnext]
    refine ⟨rfl, ⟨left, rfl⟩, fun quote => ?_⟩
    rintro rfl
    exact absurd hmode Bool.false_ne_true

theorem isPlain_step {s : Scanner} {c : CodePoint} (hs : IsPlain s) (hc : c ∉ strangers) :
    IsPlain (s.step c) := by
  obtain ⟨mode, escaped, closers⟩ := s
  obtain ⟨rfl, ⟨left, rfl⟩, hmode⟩ := hs
  obtain ⟨hbackslash, hquote, -⟩ := ne_of_not_mem_strangers hc
  rw [step, if_neg (by simp)]
  cases mode with
  | outside name => exact isPlain_stepOutside hc name left
  | slash =>
    dsimp only
    split
    · exact ⟨rfl, ⟨left, rfl⟩, by simp⟩
    · exact isPlain_stepOutside hc [] left
  | string quote => exact absurd rfl (hmode quote)
  | comment | star =>
    dsimp only
    split_ifs <;> exact ⟨rfl, ⟨left, rfl⟩, by simp⟩
  | address begun =>
    simp only [if_neg hbackslash, hquote, Bool.false_eq_true, and_false, if_false]
    split <;> exact ⟨rfl, ⟨left, rfl⟩, by simp⟩

theorem isPlain_run {s : Scanner} {t : Text} (hs : IsPlain s) (ht : ∀ c ∈ t, c ∉ strangers) :
    IsPlain (s.run t) := by
  induction t generalizing s with
  | nil => exact hs
  | cons c t ih =>
    obtain ⟨hc, ht⟩ := List.forall_mem_cons.mp ht
    exact ih (isPlain_step hs hc) ht

/-- Braces and gaps close nothing that declarations may have opened. -/
theorem not_isAtRest_step {s : Scanner} {c : CodePoint} (hs : IsPlain s) (h : s.isAtRest = false)
    (hc : isGap c = true ∨ c = '\x7d') : (s.step c).isAtRest = false := by
  have hplain : c ∉ strangers ∧ (c ≠ '(' ∧ c ≠ ')') ∧ c ≠ '*' ∧ c ≠ '/' := by
    rw [isGap, Bool.or_eq_true, decide_eq_true_eq, decide_eq_true_eq] at hc
    rcases hc with (rfl | rfl) | rfl <;> decide
  obtain ⟨hchar, hround, hstar, hslash⟩ := hplain
  obtain ⟨mode, escaped, closers⟩ := s
  obtain ⟨rfl, ⟨left, rfl⟩, hmode⟩ := hs
  -- outside, a round bracket is open, and it stays open
  have houtside (name : Text) (hleft : left ≠ 0) :
      (stepOutside name (rounds left) c).isAtRest = false := by
    have hclosers : (rounds left).isEmpty = false := by simp [rounds, hleft]
    obtain ⟨mode, -, hnext⟩ := stepOutside_of_ne hchar hround name left
    rw [hnext, isAtRest, hclosers]
    rfl
  have hleft (hrest : mode.isOutside = true) : left ≠ 0 := by
    rintro rfl
    rw [isAtRest, hrest] at h
    exact absurd h (by simp [rounds])
  obtain ⟨hbackslash, hquote, -⟩ := ne_of_not_mem_strangers hchar
  rw [step, if_neg (by simp)]
  cases mode with
  | outside name => exact houtside name (hleft rfl)
  | slash =>
    simp only [if_neg hstar]
    exact houtside [] (hleft rfl)
  | string quote => exact absurd rfl (hmode quote)
  | comment => simp [hstar, isAtRest, ScanMode.isOutside]
  | star => simp [hstar, hslash, isAtRest, ScanMode.isOutside]
  | address begun => simp [hround.2, hbackslash, hquote, isAtRest, ScanMode.isOutside]

end Scanner

/-- Declarations with balanced brackets and without `/*` leave nothing open. -/
theorem isClosed_of_isBalanced {t : Text} (ht : ∀ c ∈ t, c ∉ strangers)
    (hcomment : ¬[.char '/', .char '*'] <:+: t) (hbalanced : t.IsBalanced) : IsClosed t :=
  Scanner.isAtRest_of_isUnder
    (Scanner.isUnder_run Scanner.isUnder_start ht hcomment (by simp [Scanner.start]) hbalanced)

end UtilityCss
