import AnonymousObjects.Proofs.Compilation.Listing

/-!
# Runs over expressions

Binding the members of a program is binding their expressions in order, each inside the member in
whose own body it stands (`BindsMembers.placed`). A host may also bind expressions inside any other
member, or inside none. `BindsPlaced` covers both, and what is known of a run over members is known
of these runs: where their creations come from (`BindsPlaced.created`), and that there are no other
anonymous types (`BindsPlaced.accounts`).
-/

namespace AnonymousObjects

open AnonymousObjects.Action
open Syntax (Expr MemberDecl Program)

/-- The creations in the tree for an expression are for creations of the expression. -/
theorem Binds.source_mem_creations {ctx : Context} {base : TypeTable} (hfits : ctx.Fits base)
    {r : Option Receiver} {e : Expr} {s s' : Store} {b : BoundExpr} {ds : List Diagnostic}
    (h : Binds ctx r e s b s' ds) (hs : s.Sound base) :
    ∀ node ∈ b.creations, node.source ∈ e.creations := by
  intro node hnode
  have hsources := h.source_creations hfits hs (h.sound hfits hs).1 (.refl s')
  have hreached : node.source ∈ ctx.reached s' r e := hsources ▸ List.mem_map_of_mem hnode
  exact (ctx.reached_sublist s' r e).subset hreached

namespace Compilation

/-- `BindsPlaced c xs s bs s'` says that the expressions `xs` are bound to `bs` in order. -/
inductive BindsPlaced (c : Compilation) :
    List (Option ContainingMember × Expr) → Store → List BoundExpr → Store → Prop where
  | nil (s) : BindsPlaced c [] s [] s
  | cons (member e rest s b t ds bs s') :
      Binds (c.context member) none e s b t ds → BindsPlaced c rest t bs s' →
      BindsPlaced c ((member, e) :: rest) s (b :: bs) s'

namespace BindsPlaced

variable {c : Compilation} {xs ys : List (Option ContainingMember × Expr)} {s s' s'' : Store}
  {bs others : List BoundExpr}

/-- Binding expressions one by one leaves a store that is reached from the one before. -/
theorem reaches (h : BindsPlaced c xs s bs s') : s.Reaches s' := by
  induction h with
  | nil => exact .refl
  | cons _ _ _ _ _ _ _ _ _ hb _ ih => exact hb.reaches.trans ih

/-- Expressions may be bound in two goes. -/
theorem append (h : BindsPlaced c xs s bs s') (h' : BindsPlaced c ys s' others s'') :
    BindsPlaced c (xs ++ ys) s (bs ++ others) s'' := by
  induction h with
  | nil => exact h'
  | cons member e rest s b t ds bs _ hb _ ih => exact .cons member e _ s b t ds _ _ hb (ih h')

/-- There are no new anonymous types but those of the creations. -/
theorem accounts (h : BindsPlaced c xs s bs s') :
    Accounts s s' (BoundExpr.creationsOf bs) := by
  induction h with
  | nil => exact .of_registry rfl
  | cons _ _ _ _ _ _ _ _ _ hb _ ih =>
      rw [BoundExpr.creationsOf_cons]
      exact hb.accounts.trans ih

/-- Expressions of one member are bound one by one. -/
theorem of_bindsAll {member : ContainingMember} {es : List Expr} {ds : List Diagnostic}
    (h : BindsAll (c.context (some member)) none es s bs s' ds) :
    BindsPlaced c (es.map (some member, ·)) s bs s' := by
  induction es generalizing s bs ds with
  | nil =>
      cases h
      exact .nil _
  | cons e es ih =>
      cases h with
      | cons _ _ _ _ b t ds bs _ _ hb hbs => exact .cons _ e _ _ b t ds bs _ hb (ih hbs)

variable {p : Program} {nullable : Option Bool} {file : Option String}

/-- Every creation was made on the way, for a creation of one of the expressions. -/
theorem created (h : BindsPlaced (ofProgram p nullable file) xs s bs s')
    (hs : (ofProgram p nullable file).Reachable s) :
    ∀ node ∈ BoundExpr.creationsOf bs, ∃ x ∈ xs, node.source ∈ x.2.creations ∧
      CreatedWithin ((ofProgram p nullable file).context x.1) s s' node := by
  induction h with
  | nil => simp
  | cons member e rest s b t ds bs s' hb hbs ih =>
      intro node hnode
      rw [BoundExpr.creationsOf_cons] at hnode
      rcases List.mem_append.mp hnode with hnode | hnode
      · have hsource :=
          hb.source_mem_creations (ofProgram_fits p nullable file member) hs.sound node hnode
        obtain ⟨hwalk, hcreation⟩ := List.mem_filter.mp hnode
        exact ⟨_, List.mem_cons_self, hsource,
          (hb.created node hwalk hcreation).widen .refl hbs.reaches⟩
      · obtain ⟨x, hx, hsource, hcreated⟩ := ih (hs.trans hb.reaches) node hnode
        exact ⟨x, List.mem_cons_of_mem _ hx, hsource, hcreated.widen hb.reaches .refl⟩

end BindsPlaced

section

variable {c : Compilation}

mutual

/-- Binding a member is binding its expressions and then those of its local functions. -/
theorem BindsMember.placed {m : MemberDecl} {s s' : Store} {bound : BoundMember}
    (h : BindsMember c m s bound s') :
    BindsPlaced c (m.placed.map fun x => (some x.1, x.2)) s (bound.placed.map Prod.snd) s' := by
  match h with
  | .member position kind name exprs locals _ bs t ds bound _ hexprs hlocals =>
      simpa [MemberDecl.placed, BoundMember.placed, Function.comp_def] using
        (BindsPlaced.of_bindsAll hexprs).append hlocals.placed

/-- Members are bound by binding their expressions one by one. -/
theorem BindsMembers.placed {ms : List MemberDecl} {s s' : Store} {bound : List BoundMember}
    (h : BindsMembers c ms s bound s') :
    BindsPlaced c ((MemberDecl.placedOf ms).map fun x => (some x.1, x.2)) s
      ((BoundMember.placedOf bound).map Prod.snd) s' := by
  match h with
  | .nil s => exact .nil s
  | .cons m ms _ bound t others _ hm hms =>
      simpa [MemberDecl.placedOf, BoundMember.placedOf] using hm.placed.append hms.placed

end

end

/-- The creations of members are those of their expressions. -/
theorem map_snd_creationsOf (bound : List BoundMember) :
    (BoundMember.creationsOf bound).map Prod.snd =
      BoundExpr.creationsOf ((BoundMember.placedOf bound).map Prod.snd) := by
  rw [BoundMember.creationsOf_eq]
  unfold BoundMember.creationsAt
  induction BoundMember.placedOf bound with
  | nil => rfl
  | cons y places ih => simp [ih, Function.comp_def]

end Compilation

end AnonymousObjects
