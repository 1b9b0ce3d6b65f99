import AnonymousObjects.Proofs.Syntax.Grammar.Trees

/-!
# Derivations without trailing commas

The comma after the last initializer of a creation builds nothing. `Sum.trim` leaves such commas out
of a derivation; `Sum.build_trim` and `Sum.tokens_trim` say that it loses nothing else.
-/

namespace AnonymousObjects.Syntax.Grammar

mutual

/-- A sum without trailing commas. -/
def Sum.trim : Sum → Sum
  | .chain operand => .chain operand.trim
  | .plus left op right => .plus left.trim op right.trim

/-- An operand without trailing commas. -/
def Chain.trim : Chain → Chain
  | .primary head => .primary head.trim
  | .member target op name => .member target.trim op name
  | .conditional target op name => .conditional target.trim op name
  | .call callee opening closing => .call callee.trim opening closing
  | .callWith callee opening arguments closing =>
    .callWith callee.trim opening arguments.trim closing

/-- Arguments without trailing commas. -/
def Arguments.trim : Arguments → Arguments
  | .last value => .last value.trim
  | .more value comma rest => .more value.trim comma rest.trim

/-- A primary expression without trailing commas. -/
def Primary.trim : Primary → Primary
  | .paren opening inner closing => .paren opening inner.trim closing
  | .creation new opening initializers closing => .creation new opening initializers.trim closing
  | .name token => .name token
  | .qualifiedName first op second rest => .qualifiedName first op second rest
  | .integer token => .integer token
  | .string token => .string token
  | .trueWord token => .trueWord token
  | .falseWord token => .falseWord token
  | .nullWord token => .nullWord token
  | .emptyCreation new opening closing => .emptyCreation new opening closing

/-- Initializers without trailing commas. -/
def Initializers.trim : Initializers → Initializers
  | .last init => .last init.trim
  | .trailing init _ => .last init.trim
  | .more init comma rest => .more init.trim comma rest.trim

/-- An initializer without trailing commas. -/
def Declarator.trim : Declarator → Declarator
  | .named name op value => .named name op value.trim
  | .implicit value => .implicit value.trim

end

/-- A primary starts at the same place without commas at ends. -/
theorem Primary.start_trim (head : Primary) : head.trim.start = head.start := by
  cases head <;> rfl

/-- A chain starts at the same place without commas at ends. -/
theorem Chain.start_trim : ∀ operand : Chain, operand.trim.start = operand.start
  | .primary head => head.start_trim
  | .member target _ _ => target.start_trim
  | .conditional target _ _ => target.start_trim
  | .call callee _ _ => callee.start_trim
  | .callWith callee _ _ _ => callee.start_trim

/-- A sum starts at the same place without commas at ends. -/
theorem Sum.start_trim : ∀ s : Sum, s.trim.start = s.start
  | .chain operand => operand.start_trim
  | .plus left _ _ => left.start_trim

section

variable [Text.CharacterNames]

mutual

/-- Trailing commas build nothing. -/
theorem Sum.build_trim : ∀ s : Sum, s.trim.build = s.build
  | .chain operand => operand.build_trim
  | .plus left _ right => by
      rw [Sum.trim, Sum.build, left.start_trim, left.build_trim, right.build_trim, Sum.build]

/-- A chain builds the same without commas at ends. -/
theorem Chain.build_trim : ∀ operand : Chain, operand.trim.build = operand.build
  | .primary head => head.build_trim
  | .member target _ _ => by rw [Chain.trim, Chain.build, target.build_trim, Chain.build]
  | .conditional target _ _ => by rw [Chain.trim, Chain.build, target.build_trim, Chain.build]
  | .call callee _ _ => by rw [Chain.trim, Chain.build, callee.build_trim, Chain.build]
  | .callWith callee _ arguments _ => by
      rw [Chain.trim, Chain.build, callee.build_trim, arguments.build_trim, Chain.build]

/-- Arguments build the same without commas at ends. -/
theorem Arguments.build_trim : ∀ arguments : Arguments, arguments.trim.build = arguments.build
  | .last value => by rw [Arguments.trim, Arguments.build, value.build_trim, Arguments.build]
  | .more value _ rest => by
      rw [Arguments.trim, Arguments.build, value.build_trim, rest.build_trim, Arguments.build]

/-- A primary builds the same without commas at ends. -/
theorem Primary.build_trim : ∀ head : Primary, head.trim.build = head.build
  | .paren _ inner _ => by rw [Primary.trim, Primary.build, inner.build_trim, Primary.build]
  | .creation _ _ initializers _ => by
      rw [Primary.trim, Primary.build, initializers.build_trim, Primary.build]
  | .name _ | .qualifiedName _ _ _ _ | .integer _ | .string _ | .trueWord _ | .falseWord _
  | .nullWord _ | .emptyCreation _ _ _ => by rw [Primary.trim]

/-- Initializers build the same without commas at ends. -/
theorem Initializers.build_trim : ∀ initializers : Initializers,
    initializers.trim.build = initializers.build
  | .last init => by rw [Initializers.trim, Initializers.build, init.build_trim, Initializers.build]
  | .trailing init _ => by
      rw [Initializers.trim, Initializers.build, init.build_trim, Initializers.build]
  | .more init _ rest => by
      rw [Initializers.trim, Initializers.build, init.build_trim, rest.build_trim,
        Initializers.build]

/-- A declarator builds the same without commas at ends. -/
theorem Declarator.build_trim : ∀ init : Declarator, init.trim.build = init.build
  | .named _ _ value => by
      rw [Declarator.trim, Declarator.build, value.build_trim, Declarator.build]
  | .implicit value => by
      rw [Declarator.trim, Declarator.build, value.build_trim, value.start_trim, Declarator.build]

end

end

mutual

/-- Only commas are lost. -/
theorem Sum.tokens_trim : ∀ s : Sum, s.trim.tokens.Sublist s.tokens
  | .chain operand => operand.tokens_trim
  | .plus left _ right => left.tokens_trim.append (right.tokens_trim.cons_cons _)

/-- A chain without commas at ends has some of its tokens. -/
theorem Chain.tokens_trim : ∀ operand : Chain, operand.trim.tokens.Sublist operand.tokens
  | .primary head => head.tokens_trim
  | .member target _ _ => target.tokens_trim.append (.refl _)
  | .conditional target _ _ => target.tokens_trim.append (.refl _)
  | .call callee _ _ => callee.tokens_trim.append (.refl _)
  | .callWith callee _ arguments _ =>
    callee.tokens_trim.append ((arguments.tokens_trim.append (.refl _)).cons_cons _)

/-- Arguments without commas at ends have some of their tokens. -/
theorem Arguments.tokens_trim : ∀ arguments : Arguments,
    arguments.trim.tokens.Sublist arguments.tokens
  | .last value => value.tokens_trim
  | .more value _ rest => value.tokens_trim.append (rest.tokens_trim.cons_cons _)

/-- A primary without commas at ends has some of its tokens. -/
theorem Primary.tokens_trim : ∀ head : Primary, head.trim.tokens.Sublist head.tokens
  | .paren _ inner _ => (inner.tokens_trim.append (.refl _)).cons_cons _
  | .creation _ _ initializers _ =>
    ((initializers.tokens_trim.append (.refl _)).cons_cons _).cons_cons _
  | .name _ | .qualifiedName _ _ _ _ | .integer _ | .string _ | .trueWord _ | .falseWord _
  | .nullWord _ | .emptyCreation _ _ _ => .refl _

/-- Initializers without commas at ends have some of their tokens. -/
theorem Initializers.tokens_trim : ∀ initializers : Initializers,
    initializers.trim.tokens.Sublist initializers.tokens
  | .last init => init.tokens_trim
  | .trailing init _ => init.tokens_trim.trans (List.sublist_append_left _ _)
  | .more init _ rest => init.tokens_trim.append (rest.tokens_trim.cons_cons _)

/-- A declarator without commas at ends has some of its tokens. -/
theorem Declarator.tokens_trim : ∀ init : Declarator, init.trim.tokens.Sublist init.tokens
  | .named _ _ value => (value.tokens_trim.cons_cons _).cons_cons _
  | .implicit value => value.tokens_trim

end

end AnonymousObjects.Syntax.Grammar
