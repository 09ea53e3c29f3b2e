import DecisionRules.Proofs.Grammar.Phrase

/-!
# Levels of nesting

An opening parenthesis and `not` open a level of nesting each.  The level of a parenthesis ends
with the parenthesis that closes it.  That of `not` ends with the condition that is denied, which
is at the next connective in the same parentheses or where these are closed.  So the levels that
are open at some place are known from the tokens before it, and these need not belong to a rule.

Among the tokens of a phrase, the levels around a token are the groups and denied conditions that
it lies in.
-/

namespace DecisionRules
namespace Grammar

/-- The levels of nesting that are open at some place. -/
structure Nesting where
  /-- The parentheses that are open, the innermost first, each with the number of denials that
  are open around it within the next outer parentheses. -/
  groups : List (Token × Nat)
  /-- The number of open denials within the innermost parentheses. -/
  denials : Nat
  deriving DecidableEq

namespace Nesting

/-- No level is open. -/
def start : Nesting := ⟨[], 0⟩

/-- The number of levels of open parentheses and of the denials around them. -/
def groupDepth : List (Token × Nat) → Nat
  | [] => 0
  | group :: outer => group.2 + 1 + groupDepth outer

/-- The number of open levels. -/
def depth (nesting : Nesting) : Nat :=
  nesting.denials + groupDepth nesting.groups

/-- The open levels after one more token. -/
def after (nesting : Nesting) (token : Token) : Nesting :=
  match token.terminal with
  | .leftParen => ⟨(token, nesting.denials) :: nesting.groups, 0⟩
  | .negation => ⟨nesting.groups, nesting.denials + 1⟩
  | .conjunction | .disjunction => ⟨nesting.groups, 0⟩
  | .rightParen =>
    match nesting.groups with
    | [] => nesting
    | group :: outer => ⟨outer, group.2⟩
  | _ => nesting

/-- The open levels after some more tokens. -/
def afterAll (nesting : Nesting) (tokens : List Token) : Nesting :=
  tokens.foldl after nesting

@[simp] theorem afterAll_nil (nesting : Nesting) : nesting.afterAll [] = nesting := rfl

@[simp] theorem afterAll_cons (nesting : Nesting) (token : Token) (tokens : List Token) :
    nesting.afterAll (token :: tokens) = (nesting.after token).afterAll tokens := rfl

@[simp] theorem afterAll_append (nesting : Nesting) (left right : List Token) :
    nesting.afterAll (left ++ right) = (nesting.afterAll left).afterAll right :=
  List.foldl_append

section After

variable {nesting : Nesting} {token : Token}

theorem after_opening (nesting : Nesting) (opens : token.terminal = .leftParen) :
    nesting.after token = ⟨(token, nesting.denials) :: nesting.groups, 0⟩ := by
  rw [after, opens]

theorem after_denial (nesting : Nesting) (denies : token.terminal = .negation) :
    nesting.after token = ⟨nesting.groups, nesting.denials + 1⟩ := by
  rw [after, denies]

theorem after_closing
    {group : Token × Nat}
    {outer : List (Token × Nat)}
    (closes : token.terminal = .rightParen)
    (inside : nesting.groups = group :: outer) :
    nesting.after token = ⟨outer, group.2⟩ := by
  rw [after, closes]
  simp only [inside]

theorem after_operand (isOperand : token.terminal.isOperand = true) :
    nesting.after token = nesting := by
  unfold after
  cases terminal : token.terminal <;> simp_all [Terminal.isOperand]

/-- The groups that are open after a token are opened by it or were open before it. -/
theorem eq_or_mem_of_mem_groups_after
    {group : Token × Nat}
    (member : group ∈ (nesting.after token).groups) :
    group.1 = token ∨ group ∈ nesting.groups := by
  unfold after at member
  cases terminal : token.terminal with
  | leftParen =>
      rw [terminal] at member
      obtain rfl | member := List.mem_cons.mp member
      · exact .inl rfl
      · exact .inr member
  | rightParen =>
      rw [terminal] at member
      obtain ⟨groups, denials⟩ := nesting
      cases groups with
      | nil => exact .inr member
      | cons first outer => exact .inr (List.mem_cons_of_mem first member)
  | _ =>
      rw [terminal] at member
      exact .inr member

/-- A parenthesis and `not` open one level. -/
theorem depth_after_of_opens
    (nesting : Nesting)
    (opens : token.terminal = .leftParen ∨ token.terminal = .negation) :
    (nesting.after token).depth = nesting.depth + 1 := by
  obtain opens | denies := opens
  · rw [nesting.after_opening opens]
    simp only [depth, groupDepth]
    omega
  · rw [nesting.after_denial denies]
    simp only [depth]
    omega

/-- No other token opens a level. -/
theorem depth_after_le
    (nesting : Nesting)
    (other : ¬ (token.terminal = .leftParen ∨ token.terminal = .negation)) :
    (nesting.after token).depth ≤ nesting.depth := by
  unfold after
  cases terminal : token.terminal with
  | leftParen => exact absurd (.inl terminal) other
  | negation => exact absurd (.inr terminal) other
  | rightParen =>
      obtain ⟨groups, denials⟩ := nesting
      cases groups with
      | nil => exact Nat.le_refl _
      | cons group outer =>
          simp only [depth, groupDepth]
          omega
  | conjunction => exact Nat.add_le_add_right (Nat.zero_le _) _
  | disjunction => exact Nat.add_le_add_right (Nat.zero_le _) _
  | _ => exact Nat.le_refl _

/-- A token opens at most one level. -/
theorem depth_after_le_succ (nesting : Nesting) (token : Token) :
    (nesting.after token).depth ≤ nesting.depth + 1 := by
  by_cases opens : token.terminal = .leftParen ∨ token.terminal = .negation
  · exact Nat.le_of_eq (nesting.depth_after_of_opens opens)
  · exact Nat.le_succ_of_le (nesting.depth_after_le opens)

end After

/-- The groups that are open after some tokens are opened by one of them or were open before. -/
theorem mem_or_mem_of_mem_groups_afterAll
    {nesting : Nesting}
    {tokens : List Token}
    {group : Token × Nat}
    (member : group ∈ (nesting.afterAll tokens).groups) :
    group.1 ∈ tokens ∨ group ∈ nesting.groups := by
  induction tokens generalizing nesting with
  | nil => exact .inr member
  | cons token tokens inductionHypothesis =>
      obtain memberLater | memberAfter := inductionHypothesis member
      · exact .inl (List.mem_cons_of_mem token memberLater)
      · obtain same | memberBefore := eq_or_mem_of_mem_groups_after memberAfter
        · exact .inl (same ▸ List.mem_cons_self)
        · exact .inr memberBefore

/-- The parentheses and denials that open a level, each with the number of levels around it. -/
def openings (nesting : Nesting) : List Token → List (Token × Nat)
  | [] => []
  | token :: rest =>
    if token.terminal = .leftParen ∨ token.terminal = .negation then
      (token, nesting.depth) :: openings (nesting.after token) rest
    else openings (nesting.after token) rest

theorem openings_append (nesting : Nesting) (left right : List Token) :
    nesting.openings (left ++ right) =
      nesting.openings left ++ (nesting.afterAll left).openings right := by
  induction left generalizing nesting with
  | nil => rfl
  | cons token left inductionHypothesis =>
      simp only [List.cons_append, openings, afterAll_cons, inductionHypothesis]
      split <;> rfl

/-- Around a token there are no more levels than tokens before it, beside those that were open
before all of them. -/
theorem lt_of_mem_openings
    (nesting : Nesting)
    {tokens : List Token}
    {opening : Token × Nat}
    (member : opening ∈ nesting.openings tokens) :
    opening.2 < nesting.depth + tokens.length := by
  induction tokens generalizing nesting with
  | nil => cases member
  | cons token rest inductionHypothesis =>
      have later (memberRest : opening ∈ (nesting.after token).openings rest) :
          opening.2 < nesting.depth + (token :: rest).length := by
        have less := inductionHypothesis _ memberRest
        have depth := nesting.depth_after_le_succ token
        rw [List.length_cons]
        omega
      rw [openings] at member
      split at member
      · obtain rfl | member := List.mem_cons.mp member
        · exact Nat.lt_add_of_pos_right (Nat.succ_pos _)
        · exact later member
      · exact later member

end Nesting

/-! ## Phrases -/

/-- A phrase of a symbol can be a denial, or can be made of denials and connectives. -/
def Nonterminal.denies : Nonterminal → Bool
  | .condition | .run .conjunction | .run .disjunction => true
  | _ => false

/-- The operands of a level are joined by connectives. -/
def Level.connects : Level → Bool
  | .conjunction | .disjunction => true
  | _ => false

theorem Level.denies_operand (level : Level) :
    level.operand.denies = (Nonterminal.run level).denies := by
  cases level <;> rfl

/-- Conditions are joined by connectives only where no denial is open. -/
def Nesting.Fits (nesting : Nesting) : Nonterminal → Prop
  | .run level => level.connects = true → nesting.denials = 0
  | _ => True

/-- What a phrase of a symbol leaves open, beside what was open before it: nothing, or denials if
the symbol can have them. -/
structure Nesting.Leaves (before : Nesting) (symbol : Nonterminal) (after : Nesting) : Prop where
  /-- All parentheses of the phrase are closed. -/
  groups : after.groups = before.groups
  /-- Without denials, nothing is left open. -/
  same : symbol.denies = false → after = before

namespace Nesting

theorem fits_of_denials_eq_zero
    {nesting : Nesting}
    (symbol : Nonterminal)
    (fresh : nesting.denials = 0) :
    nesting.Fits symbol := by
  cases symbol with
  | run level => exact fun _ => fresh
  | _ => trivial

theorem leaves_refl (nesting : Nesting) (symbol : Nonterminal) : nesting.Leaves symbol nesting :=
  ⟨rfl, fun _ => rfl⟩

section Level

variable {nesting left : Nesting} {level : Level}

theorem Fits.operand (fits : nesting.Fits (.run level)) : nesting.Fits level.operand := by
  cases level with
  | disjunction => exact fits
  | product => trivial
  | conjunction => trivial
  | sum => exact fun connects => nomatch connects
  | comparison => exact fun connects => nomatch connects

theorem Leaves.run (leaves : nesting.Leaves level.operand left) :
    nesting.Leaves (.run level) left :=
  ⟨leaves.groups, fun affirms => leaves.same (level.denies_operand.trans affirms)⟩

/-- An operator ends all denials of the operand before it. -/
theorem Leaves.after_sign
    (leaves : nesting.Leaves level.operand left)
    (fits : nesting.Fits (.run level))
    {sign : Token}
    (joins : level.Joins sign.terminal) :
    left.after sign = nesting := by
  rw [Level.joins_iff] at joins
  cases connects : level.connects with
  | true =>
      have ends : left.after sign = ⟨left.groups, 0⟩ := by
        unfold after
        cases terminal : sign.terminal <;> cases level <;> simp_all [joined?, Level.connects]
      rw [ends, leaves.groups, ← fits connects]
  | false =>
      have affirms : level.operand.denies = false := by
        cases level <;> simp_all [Level.connects, Level.operand, Nonterminal.denies]
      rw [leaves.same affirms]
      unfold after
      cases terminal : sign.terminal <;> cases level <;> simp_all [joined?, Level.connects]

end Level

end Nesting

/-- The places at which a level is opened. -/
def openPlaces (places : List (Token × Nat)) : List (Token × Nat) :=
  places.filter fun place => place.1.terminal = .leftParen ∨ place.1.terminal = .negation

theorem openPlaces_append (left right : List (Token × Nat)) :
    openPlaces (left ++ right) = openPlaces left ++ openPlaces right :=
  List.filter_append ..

theorem openPlaces_cons_of_opens
    {place : Token × Nat}
    (places : List (Token × Nat))
    (opens : place.1.terminal = .leftParen ∨ place.1.terminal = .negation) :
    openPlaces (place :: places) = place :: openPlaces places :=
  List.filter_cons_of_pos (by simpa using opens)

theorem openPlaces_cons_of_not_opens
    {place : Token × Nat}
    (places : List (Token × Nat))
    (other : ¬ (place.1.terminal = .leftParen ∨ place.1.terminal = .negation)) :
    openPlaces (place :: places) = openPlaces places :=
  List.filter_cons_of_neg (by simpa using other)

/-- No operator opens a level. -/
theorem Level.Joins.not_opens
    {level : Level}
    {terminal : Terminal}
    (joins : level.Joins terminal) :
    ¬ (terminal = .leftParen ∨ terminal = .negation) := by
  rw [Level.joins_iff] at joins
  rintro (rfl | rfl) <;> cases joins

/-- No operand opens a level. -/
theorem not_opens_of_isOperand {terminal : Terminal} (isOperand : terminal.isOperand = true) :
    ¬ (terminal = .leftParen ∨ terminal = .negation) := by
  rintro (rfl | rfl) <;> cases isOperand

mutual

/-- The levels around the tokens of a phrase are those that the phrase lies in, and those of the
phrase itself. -/
theorem Phrase.openings_tokens {symbol : Nonterminal} :
    (phrase : Phrase symbol) →
    (nesting : Nesting) →
    nesting.Fits symbol →
    nesting.openings phrase.tokens = openPlaces (phrase.places nesting.depth) ∧
      nesting.Leaves symbol (nesting.afterAll phrase.tokens)
  | .operand token isOperand, nesting, _ => by
      have other := not_opens_of_isOperand isOperand
      rw [Phrase.tokens, Phrase.places, openPlaces_cons_of_not_opens _ other,
        Nesting.openings, if_neg other, Nesting.afterAll_cons, Nesting.after_operand isOperand]
      exact ⟨rfl, nesting.leaves_refl _⟩
  | .group opening opens inner closing closes, nesting, _ => by
      have deeper := nesting.depth_after_of_opens (.inl opens)
      have closed : ¬ (closing.terminal = .leftParen ∨ closing.terminal = .negation) := by
        rw [closes]
        decide
      have within : (nesting.after opening).groups =
          (opening, nesting.denials) :: nesting.groups := by
        rw [nesting.after_opening opens]
      obtain ⟨levels, leaves⟩ := inner.openings_tokens (nesting.after opening)
        (Nesting.fits_of_denials_eq_zero _ (by rw [nesting.after_opening opens]))
      have ends := Nesting.after_closing closes (leaves.groups.trans within)
      rw [Phrase.tokens, Phrase.places, openPlaces_cons_of_opens _ (.inl opens),
        openPlaces_append, openPlaces_cons_of_not_opens _ closed, Nesting.openings,
        if_pos (.inl opens), Nesting.openings_append, levels, deeper, Nesting.openings,
        if_neg closed, Nesting.afterAll_cons, Nesting.afterAll_append, Nesting.afterAll_cons,
        ends]
      exact ⟨rfl, nesting.leaves_refl _⟩
  | .denial sign denies inner, nesting, _ => by
      have deeper := nesting.depth_after_of_opens (.inr denies)
      obtain ⟨levels, leaves⟩ := inner.openings_tokens (nesting.after sign) trivial
      have within : (nesting.after sign).groups = nesting.groups := by
        rw [nesting.after_denial denies]
      rw [Phrase.tokens, Phrase.places, openPlaces_cons_of_opens _ (.inr denies),
        Nesting.openings, if_pos (.inr denies), levels, deeper, Nesting.afterAll_cons]
      exact ⟨rfl, leaves.groups.trans within, fun affirms => nomatch affirms⟩
  | .plain inner, nesting, _ => by
      obtain ⟨levels, leaves⟩ := inner.openings_tokens nesting fun connects => nomatch connects
      exact ⟨levels, leaves.groups, fun affirms => nomatch affirms⟩
  | .run first later, nesting, fits => by
      obtain ⟨levels, leaves⟩ := first.openings_tokens nesting fits.operand
      obtain ⟨levelsLater, leavesLater⟩ := later.openings_tokens fits leaves
      rw [Phrase.tokens, Phrase.places, Nesting.openings_append, openPlaces_append, levels,
        levelsLater, Nesting.afterAll_append]
      exact ⟨rfl, leavesLater⟩

theorem Later.openings_tokens
    {level : Level}
    {nesting left : Nesting} :
    (later : Later level) →
    nesting.Fits (.run level) →
    nesting.Leaves level.operand left →
    left.openings later.tokens = openPlaces (later.places nesting.depth) ∧
      nesting.Leaves (.run level) (left.afterAll later.tokens)
  | .done, _, leaves => ⟨rfl, leaves.run⟩
  | .more sign operator spelled operand rest, fits, leaves => by
      have joins : level.Joins sign.terminal := ⟨operator, spelled⟩
      have ends := leaves.after_sign fits joins
      obtain ⟨levels, leavesOperand⟩ := operand.openings_tokens nesting fits.operand
      obtain ⟨levelsRest, leavesRest⟩ := rest.openings_tokens fits leavesOperand
      rw [Later.tokens, Later.places, openPlaces_cons_of_not_opens _ joins.not_opens,
        Nesting.openings, if_neg joins.not_opens, Nesting.openings_append, openPlaces_append,
        ends, levels, levelsRest, Nesting.afterAll_cons, Nesting.afterAll_append, ends]
      exact ⟨rfl, leavesRest⟩

end

end Grammar
end DecisionRules
