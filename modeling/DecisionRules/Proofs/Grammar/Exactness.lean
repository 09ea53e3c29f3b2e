import DecisionRules.Proofs.Grammar.Production

/-!
# The productions read exactly the phrases

A production reads the phrases of its symbol and nothing else.  Where a phrase begins the tokens
and does not go on with what follows, the production returns the tree of the phrase and leaves
what follows; this is an induction on the phrase.  Conversely, whatever a production returns is
the tree of a phrase that begins the tokens; this is an induction on the room for deeper levels,
and at one level each run is an induction on the number of tokens.

A phrase can be read only where the vocabulary knows its operands and where there is room for
its nesting, and both are said of its places.
-/

namespace DecisionRules
namespace Grammar

/-- The vocabulary knows a token, unless the token is no operand. -/
def Known (vocabulary : Vocabulary) (token : Token) : Prop :=
  token.terminal.isOperand = true →
    Operand.ofToken vocabulary token = .ok (denoted vocabulary token)

/-- An operand that can be read is the one that the token denotes. -/
theorem eq_denoted_of_ofToken
    {vocabulary : Vocabulary}
    {token : Token}
    {operand : Operand}
    (read : Operand.ofToken vocabulary token = .ok operand) :
    operand = denoted vocabulary token := by
  unfold Operand.ofToken at read
  unfold denoted
  split at read <;> rename_i terminal <;> simp only [terminal]
  · split at read <;> simp_all
  · simpa using read.symm
  · simpa using read.symm
  · split at read <;> simp_all
  · cases read

/-- The vocabulary knows the tokens of all places, which lie in at most `limit` groups and
denied conditions. -/
def Readable (vocabulary : Vocabulary) (limit : Nat) (places : List (Token × Nat)) : Prop :=
  ∀ place ∈ places, Known vocabulary place.1 ∧ place.2 ≤ limit

section Readable

variable {vocabulary : Vocabulary} {limit : Nat}

@[simp] theorem readable_nil : Readable vocabulary limit [] := by
  simp [Readable]

@[simp] theorem readable_cons (place : Token × Nat) (places : List (Token × Nat)) :
    Readable vocabulary limit (place :: places) ↔
      (Known vocabulary place.1 ∧ place.2 ≤ limit) ∧ Readable vocabulary limit places := by
  simp [Readable]

@[simp] theorem readable_append (left right : List (Token × Nat)) :
    Readable vocabulary limit (left ++ right) ↔
      Readable vocabulary limit left ∧ Readable vocabulary limit right := by
  exact List.forall_mem_append

end Readable

/-- Nothing has to be known of a token that is no operand. -/
theorem known_of_isOperand_eq_false
    {vocabulary : Vocabulary}
    {token : Token}
    (sign : token.terminal.isOperand = false) :
    Known vocabulary token := by
  intro isOperand
  rw [sign] at isOperand
  cases isOperand

/-- The first token of a phrase lies no deeper than the phrase. -/
theorem Phrase.exists_mem_places {symbol : Nonterminal} :
    (phrase : Phrase symbol) → (depth : Nat) → ∃ token, (token, depth) ∈ phrase.places depth
  | .operand token _, _ => ⟨token, List.mem_singleton_self _⟩
  | .group opening _ _ _ _, _ => ⟨opening, List.mem_cons_self⟩
  | .denial sign _ _, _ => ⟨sign, List.mem_cons_self⟩
  | .plain inner, depth => inner.exists_mem_places depth
  | .run first later, depth => by
      obtain ⟨token, member⟩ := first.exists_mem_places depth
      exact ⟨token, List.mem_append_left _ member⟩

/-- A phrase one level deeper needs room for a level. -/
theorem Phrase.exists_room
    {vocabulary : Vocabulary}
    {symbol : Nonterminal}
    {phrase : Phrase symbol}
    {depth room : Nat}
    (readable : Readable vocabulary (depth + room) (phrase.places (depth + 1))) :
    ∃ deeper, room = deeper + 1 ∧
      Readable vocabulary (depth + 1 + deeper) (phrase.places (depth + 1)) := by
  obtain ⟨token, member⟩ := phrase.exists_mem_places (depth + 1)
  have within : depth + 1 ≤ depth + room := (readable _ member).2
  refine ⟨room - 1, by omega, ?_⟩
  rwa [show depth + 1 + (room - 1) = depth + room by omega]

/-- The run of a first operand and what follows it. -/
def Later.run {level : Level} (vocabulary : Vocabulary) (first : Expr) (later : Later level) :
    Run level.Operator :=
  ⟨first, later.operators.zip (later.trees vocabulary)⟩

theorem Later.form_run
    {level : Level}
    (vocabulary : Vocabulary)
    (first : Expr)
    (later : Later level) :
    level.form (later.run vocabulary first) =
      level.node first (later.trees vocabulary) later.operators := by
  have lengths := later.length_operators vocabulary
  rw [Level.form_eq_node, Later.run, List.map_fst_zip (by omega), List.map_snd_zip (by omega)]

section Complete

variable {vocabulary : Vocabulary}

mutual

/-- A production reads a phrase of its symbol that does not go on with what follows. -/
theorem Phrase.result_production
    {symbol : Nonterminal}
    {depth room : Nat}
    {rest : List Token} :
    (phrase : Phrase symbol) →
    Readable vocabulary (depth + room) (phrase.places depth) →
    Stops symbol rest →
    (production vocabulary room symbol).result (phrase.tokens ++ rest) =
      .ok (phrase.tree vocabulary, rest)
  | .operand token isOperand, readable, _ => by
      simp only [Phrase.places, readable_cons] at readable
      simp only [Phrase.tokens, List.cons_append, List.nil_append, Phrase.tree]
      rw [result_primary_cons, if_pos isOperand, readable.1.1 isOperand]
  | .group opening opens inner closing closes, readable, _ => by
      simp only [Phrase.places, readable_cons, readable_append] at readable
      obtain ⟨deeper, rfl, within⟩ := Phrase.exists_room readable.2.1
      have read := inner.result_production within (stops_of_closing _ closes rest)
      have notOperand : ¬ opening.terminal.isOperand = true := by
        rw [opens]
        decide
      simp only [Phrase.tokens, List.cons_append, List.append_assoc, List.nil_append, Phrase.tree]
      rw [result_primary_cons, if_neg notOperand, if_pos opens]
      simp only [read, closes, if_true]
  | .denial sign denies inner, readable, stops => by
      simp only [Phrase.places, readable_cons] at readable
      obtain ⟨deeper, rfl, within⟩ := Phrase.exists_room readable.2
      have read := inner.result_production within stops
      simp only [Phrase.tokens, List.cons_append, Phrase.tree]
      rw [result_condition_denial vocabulary _ _ denies]
      simp only [read, Except.map]
  | .plain inner, readable, stops => by
      obtain ⟨token, remaining, spelled, begin⟩ := inner.exists_tokens_cons
      have affirms : ∀ token ∈ (inner.tokens ++ rest).head?, token.terminal ≠ .negation := by
        intro head found denies
        rw [spelled] at found
        cases found
        rw [denies] at begin
        cases begin
      rw [Phrase.tokens, result_condition_plain vocabulary room affirms]
      exact inner.result_production readable stops
  | .run first later, readable, stops => by
      simp only [Phrase.places, readable_append] at readable
      have read := first.result_production readable.1 (later.stops stops)
      rw [Phrase.tokens, List.append_assoc, result_run, later.result_read readable.2 stops read]
      simp only [Except.map, Phrase.tree, Later.form_run]

/-- Once its first operand has been read, a run is read to its end. -/
theorem Later.result_read
    {level : Level}
    {depth room : Nat}
    {tokens rest : List Token}
    {first : Expr} :
    (later : Later level) →
    Readable vocabulary (depth + room) (later.places depth) →
    Stops (.run level) rest →
    (production vocabulary room level.operand).result tokens =
      .ok (first, later.tokens ++ rest) →
    Production.result (Run.read level.operator? (production vocabulary room level.operand)) tokens =
      .ok (later.run vocabulary first, rest)
  | .done, _, stops, read => by
      rw [Run.result_read, read]
      cases rest with
      | nil => rfl
      | cons token remaining =>
          simp only [Later.tokens, List.nil_append, Level.operator?_eq_none stops.not_joins]
          rfl
  | .more sign operator spelled operand remaining, readable, stops, read => by
      simp only [Later.places, readable_cons, readable_append] at readable
      have joins := (level.operator?_eq_some_iff sign.terminal operator).mpr spelled
      have next := operand.result_production readable.2.1 (remaining.stops stops)
      have readLater := remaining.result_read readable.2.2 stops next
      rw [Run.result_read, read]
      simp only [Later.tokens, List.cons_append, List.append_assoc, joins, readLater]
      rfl

end

end Complete

section Sound

variable {vocabulary : Vocabulary}

/-- What a production returns is the tree of a phrase that begins the tokens and that can be
read. -/
def Sound (vocabulary : Vocabulary) (room : Nat) (symbol : Nonterminal) : Prop :=
  ∀ (depth : Nat) (tokens rest : List Token) (tree : Expr),
    (production vocabulary room symbol).result tokens = .ok (tree, rest) →
    ∃ phrase : Phrase symbol,
      phrase.tokens ++ rest = tokens ∧
      phrase.tree vocabulary = tree ∧
      Readable vocabulary (depth + room) (phrase.places depth)

/-- A primary is an operand or a group of a deeper disjunction. -/
theorem sound_primary
    {room : Nat}
    (deeper : ∀ lower < room, Sound vocabulary lower (.run .disjunction)) :
    Sound vocabulary room .primary := by
  intro depth tokens rest tree read
  cases tokens with
  | nil => cases read
  | cons token later =>
      rw [result_primary_cons] at read
      split at read
      next isOperand =>
        split at read
        next => cases read
        next operand known =>
          cases read
          obtain rfl := eq_denoted_of_ofToken known
          refine ⟨.operand token isOperand, rfl, rfl, ?_⟩
          simpa [Phrase.places, Known] using fun _ => known
      next =>
        split at read
        next opens =>
          split at read
          next => cases read
          next room lower =>
            split at read
            next => cases read
            next => cases read
            next inner closing remaining readInner =>
              split at read
              next closes =>
                cases read
                obtain ⟨phrase, spelled, rfl, readable⟩ :=
                  deeper lower (Nat.lt_succ_self _) (depth + 1) _ _ _ readInner
                refine ⟨.group token opens phrase closing closes, ?_, rfl, ?_⟩
                · simp [Phrase.tokens, ← spelled]
                · rw [Nat.add_assoc, Nat.add_comm 1 lower] at readable
                  simp [Phrase.places, readable, Known, opens, closes, Terminal.isOperand]
              next => cases read
        next => cases read

/-- A condition is a comparison or a denied deeper condition. -/
theorem sound_condition
    {room : Nat}
    (deeper : ∀ lower < room, Sound vocabulary lower .condition)
    (comparison : Sound vocabulary room (.run .comparison)) :
    Sound vocabulary room .condition := by
  intro depth tokens rest tree read
  by_cases affirms : ∀ token ∈ tokens.head?, token.terminal ≠ .negation
  · rw [result_condition_plain vocabulary room affirms] at read
    obtain ⟨phrase, spelled, rfl, readable⟩ := comparison depth _ _ _ read
    exact ⟨.plain phrase, spelled, rfl, readable⟩
  · cases tokens with
    | nil => simp at affirms
    | cons sign later =>
        have denies : sign.terminal = .negation := by simpa using affirms
        rw [result_condition_denial vocabulary _ _ denies] at read
        split at read
        next => cases read
        next room lower =>
          obtain ⟨inner, readInner, same⟩ := exists_ok_of_map_eq_ok read
          cases same
          obtain ⟨phrase, spelled, made, readable⟩ :=
            deeper lower (Nat.lt_succ_self _) (depth + 1) _ _ _ readInner
          refine ⟨.denial sign denies phrase, ?_, ?_, ?_⟩
          · simp [Phrase.tokens, spelled]
          · simp [Phrase.tree, made]
          · rw [Nat.add_assoc, Nat.add_comm 1 lower] at readable
            simp [Phrase.places, readable, Known, denies, Terminal.isOperand]

/-- A run of one operand is made of a phrase of it. -/
theorem exists_run_of_single
    {room : Nat}
    {level : Level}
    (operand : Sound vocabulary room level.operand)
    (depth : Nat)
    {tokens rest : List Token}
    {tree : Expr}
    (read : (production vocabulary room level.operand).result tokens = .ok (tree, rest)) :
    ∃ (first : Phrase level.operand) (later : Later level),
      first.tokens ++ (later.tokens ++ rest) = tokens ∧
      later.run vocabulary (first.tree vocabulary) = ⟨tree, []⟩ ∧
      Readable vocabulary (depth + room) (first.places depth) ∧
      Readable vocabulary (depth + room) (later.places depth) := by
  obtain ⟨phrase, spelled, rfl, readable⟩ := operand depth _ _ _ read
  exact ⟨phrase, .done, spelled, rfl, readable, readable_nil⟩

/-- A run that has been read is made of phrases of its operands. -/
theorem exists_run_of_read
    {room : Nat}
    {level : Level}
    (operand : Sound vocabulary room level.operand)
    (depth : Nat)
    (tokens rest : List Token)
    (run : Run level.Operator)
    (read : Production.result
      (Run.read level.operator? (production vocabulary room level.operand)) tokens =
        .ok (run, rest)) :
    ∃ (first : Phrase level.operand) (later : Later level),
      first.tokens ++ (later.tokens ++ rest) = tokens ∧
      later.run vocabulary (first.tree vocabulary) = run ∧
      Readable vocabulary (depth + room) (first.places depth) ∧
      Readable vocabulary (depth + room) (later.places depth) := by
  rw [Run.result_read] at read
  split at read
  next => cases read
  next first readFirst =>
    cases read
    exact exists_run_of_single operand depth readFirst
  next first sign remaining readFirst =>
    split at read
    next =>
      cases read
      exact exists_run_of_single operand depth readFirst
    next operator joins =>
      have fewer : remaining.length < tokens.length :=
        Nat.lt_trans (Nat.lt_succ_self _) (Production.length_lt readFirst)
      have spelledSign := (level.operator?_eq_some_iff _ _).mp joins
      obtain ⟨found, readLater, same⟩ := exists_ok_of_map_eq_ok read
      cases same
      obtain ⟨next, later, spelledLater, made, readableNext, readableLater⟩ :=
        exists_run_of_read operand depth remaining _ _ readLater
      obtain ⟨phrase, spelled, rfl, readable⟩ := operand depth _ _ _ readFirst
      refine ⟨phrase, .more sign operator spelledSign next later, ?_, ?_, readable, ?_⟩
      · simp [Later.tokens, spelledLater, spelled]
      · simp [← made, Later.run, Later.operators, Later.trees, Run.cons]
      · simp [Later.places, readableNext, readableLater,
          known_of_isOperand_eq_false (Level.isOperand_eq_false spelledSign)]
termination_by tokens.length

/-- A run is sound when its operands are. -/
theorem sound_run
    {room : Nat}
    {level : Level}
    (operand : Sound vocabulary room level.operand) :
    Sound vocabulary room (.run level) := by
  intro depth tokens rest tree read
  rw [result_run] at read
  obtain ⟨found, readRun, same⟩ := exists_ok_of_map_eq_ok read
  cases same
  obtain ⟨first, later, spelled, made, readableFirst, readableLater⟩ :=
    exists_run_of_read operand depth _ _ _ readRun
  refine ⟨.run first later, ?_, ?_, ?_⟩
  · rw [Phrase.tokens, List.append_assoc, spelled]
  · rw [Phrase.tree, ← Later.form_run, made]
  · simp [Phrase.places, readableFirst, readableLater]

/-- Every production is sound. -/
theorem sound (room : Nat) (symbol : Nonterminal) : Sound vocabulary room symbol := by
  induction room using Nat.strongRecOn generalizing symbol with
  | ind room deeper =>
      have primary : Sound vocabulary room .primary :=
        sound_primary fun lower less => deeper lower less _
      have product : Sound vocabulary room (.run .product) := sound_run primary
      have sum : Sound vocabulary room (.run .sum) := sound_run product
      have comparison : Sound vocabulary room (.run .comparison) := sound_run sum
      have condition : Sound vocabulary room .condition :=
        sound_condition (fun lower less => deeper lower less _) comparison
      have conjunction : Sound vocabulary room (.run .conjunction) := sound_run condition
      have disjunction : Sound vocabulary room (.run .disjunction) := sound_run conjunction
      cases symbol with
      | primary => exact primary
      | condition => exact condition
      | run level => cases level <;> assumption

end Sound

end Grammar
end DecisionRules
