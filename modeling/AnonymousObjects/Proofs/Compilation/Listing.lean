import AnonymousObjects.CommandLine.Report
import AnonymousObjects.Proofs.Binding.Correspondence
import AnonymousObjects.Proofs.Syntax.SourceOrder
import AnonymousObjects.Text.NameTable

/-!
# The listing of creations

The creations of a program are listed member by member, those of a member's own expressions before
those of its local functions. `bindAll_listing` says that nothing is lost, doubled or moved on the
way from the source: the nodes listed for an expression are those for its creations, in the order
of their words `new`, and the anonymous types of all that is listed are those of the registry.
-/

namespace AnonymousObjects

open Syntax (Expr MemberDecl Program)

/-! ## Expressions with their members -/

namespace Syntax.MemberDecl

mutual

/-- The expressions of a member and then those of its local functions, each with the member in whose
own body it stands. -/
def placed : MemberDecl → List (ContainingMember × Expr)
  | ⟨position, kind, name, exprs, locals⟩ =>
    exprs.map (ContainingMember.ofDecl ⟨position, kind, name, exprs, locals⟩, ·) ++ placedOf locals

/-- The expressions of several members. -/
def placedOf : List MemberDecl → List (ContainingMember × Expr)
  | [] => []
  | m :: ms => placed m ++ placedOf ms

end

mutual

/-- Without their members, the placed expressions of a member are all its expressions. -/
theorem map_snd_placed : ∀ m : MemberDecl, m.placed.map Prod.snd = m.allExprs
  | ⟨_, _, _, _, locals⟩ => by
      simp [placed, allExprs, map_snd_placedOf locals, Function.comp_def]

/-- Without their members, the placed expressions of several members are all their expressions. -/
theorem map_snd_placedOf : ∀ ms : List MemberDecl, (placedOf ms).map Prod.snd = allExprsOf ms
  | [] => rfl
  | m :: ms => by simp [placedOf, allExprsOf, map_snd_placed m, map_snd_placedOf ms]

end

/-- The expressions of several members are those of each. -/
theorem mem_allExprsOf {e : Expr} {ms : List MemberDecl} :
    e ∈ allExprsOf ms ↔ ∃ m ∈ ms, e ∈ m.allExprs := by
  induction ms with
  | nil => simp [allExprsOf]
  | cons m ms ih => simp [allExprsOf, ih]

end Syntax.MemberDecl

/-- The creations of every expression in a program are in the order of their words `new`. -/
theorem placed_ascending [Text.CharacterNames] {source : List Char} {p : Program}
    (hp : Program.parse source = .ok p) :
    ∀ x ∈ MemberDecl.placedOf p.members, x.2.creations.Pairwise Expr.Precedes := by
  intro x hx
  have he : x.2 ∈ (MemberDecl.placedOf p.members).map Prod.snd := List.mem_map_of_mem hx
  rw [MemberDecl.map_snd_placedOf, MemberDecl.mem_allExprsOf] at he
  obtain ⟨m, hm, he⟩ := he
  exact Program.creations_ascending hp hm he

namespace BoundMember

mutual

/-- The expressions of a bound member and then those of its local functions, each with the member in
whose own body it stands. -/
def placed : BoundMember → List (ContainingMember × BoundExpr)
  | ⟨member, exprs, locals, _⟩ => exprs.map (member, ·) ++ placedOf locals

/-- The expressions of several bound members. -/
def placedOf : List BoundMember → List (ContainingMember × BoundExpr)
  | [] => []
  | m :: ms => placed m ++ placedOf ms

end

/-- The creations in expressions, each with the member of its expression. -/
def creationsAt (places : List (ContainingMember × BoundExpr)) :
    List (ContainingMember × BoundExpr) :=
  places.flatMap fun y => y.2.creations.map (y.1, ·)

/-- The creations at two lists of places are those at the one and then those at the other. -/
theorem creationsAt_append (places more : List (ContainingMember × BoundExpr)) :
    creationsAt (places ++ more) = creationsAt places ++ creationsAt more :=
  List.flatMap_append

/-- The creations of a member all stand in that member. -/
theorem creationsAt_map (member : ContainingMember) (bs : List BoundExpr) :
    creationsAt (bs.map (member, ·)) = (BoundExpr.creationsOf bs).map (member, ·) := by
  unfold creationsAt
  induction bs with
  | nil => rfl
  | cons b bs ih => simp [ih]

mutual

/-- The creations in a member are those in its expressions, in their order. -/
theorem creations_eq : ∀ m : BoundMember, m.creations = creationsAt m.placed
  | ⟨_, _, locals, _⟩ => by
      rw [placed, creationsAt_append, creationsAt_map, ← creationsOf_eq locals]
      rfl

/-- The creations of several members are those at the places of their expressions. -/
theorem creationsOf_eq : ∀ ms : List BoundMember, creationsOf ms = creationsAt (placedOf ms)
  | [] => rfl
  | m :: ms => by
      rw [placedOf, creationsAt_append, ← creations_eq m, ← creationsOf_eq ms]
      rfl

end

/-- What is listed as a creation is one. -/
theorem isCreation_of_mem_creationsOf {ms : List BoundMember} {x : ContainingMember × BoundExpr}
    (hx : x ∈ creationsOf ms) : x.2.isCreation = true := by
  rw [creationsOf_eq] at hx
  obtain ⟨y, -, hx⟩ := List.mem_flatMap.mp hx
  obtain ⟨b, hb, rfl⟩ := List.mem_map.mp hx
  exact (List.mem_filter.mp hb).2

end BoundMember

/-! ## Members -/

/-- The nodes of a tree for creations are those of the creations in the expression that are reached,
one for each, and they are in the order of their words `new`. -/
structure Context.Keeps (ctx : Context) (s : Store) (e : Expr) (b : BoundExpr) : Prop where
  sources : b.creations.map (·.source) = ctx.reached s none e
  ascending : (b.creations.map (·.source)).Pairwise Expr.Precedes

namespace Compilation

/-- An expression and a bound tree are in the same member, and the creations in the tree are those
of the expression that are reached. -/
def Matches (c : Compilation) (s : Store) (x : ContainingMember × Expr)
    (y : ContainingMember × BoundExpr) : Prop :=
  y.1 = x.1 ∧ y.2.creations.map (·.source) = (c.context (some x.1)).reached s none x.2

variable {p : Program} {nullable : Option Bool} {file : Option String} {c : Compilation}

mutual

/-- The expressions of a bound member are those of its declaration, in their order, and each has the
creations of the source. -/
theorem BindsMember.source_creations {m : MemberDecl} {s s' w : Store} {bound : BoundMember}
    (h : BindsMember (ofProgram p nullable file) m s bound s')
    (hs : (ofProgram p nullable file).Reachable s) (hw : (ofProgram p nullable file).Reachable w)
    (hagain : s'.Extends w) :
    List.Forall₂ ((ofProgram p nullable file).Matches w) m.placed bound.placed := by
  match h with
  | .member position kind name exprs locals _ bs t ds bound _ hexprs hlocals =>
      have hfits := ofProgram_fits p nullable file
        (some (.ofDecl ⟨position, kind, name, exprs, locals⟩))
      have ht := hs.trans hexprs.reaches
      have hagain' := (ht.sound.reaches hfits.table hlocals.reaches).2.trans hagain
      refine List.rel_append ?_ (hlocals.source_creations ht hw hagain)
      rw [List.forall₂_map_left_iff, List.forall₂_map_right_iff]
      exact (hexprs.source_creations hfits hs.sound hw.sound hagain').imp fun _ _ h => ⟨rfl, h⟩

/-- Members are bound in such a way that, at each place, the nodes have the creations that are
reached. -/
theorem BindsMembers.source_creations {ms : List MemberDecl} {s s' w : Store}
    {bound : List BoundMember} (h : BindsMembers (ofProgram p nullable file) ms s bound s')
    (hs : (ofProgram p nullable file).Reachable s) (hw : (ofProgram p nullable file).Reachable w)
    (hagain : s'.Extends w) :
    List.Forall₂ ((ofProgram p nullable file).Matches w) (MemberDecl.placedOf ms)
      (BoundMember.placedOf bound) := by
  match h with
  | .nil _ => exact .nil
  | .cons m ms _ bound t others _ hm hms =>
      have hbase := (ofProgram_fits p nullable file none).table
      have ht := hs.trans hm.reaches
      have hagain' := (ht.sound.reaches hbase hms.reaches).2.trans hagain
      exact List.rel_append (hm.source_creations hs hw hagain')
        (hms.source_creations ht hw hagain)

end

mutual

/-- Binding a member adds no anonymous types but those of its creations. -/
theorem BindsMember.accounts {m : MemberDecl} {s s' : Store} {bound : BoundMember}
    (h : BindsMember c m s bound s') : Accounts s s' (bound.creations.map Prod.snd) := by
  match h with
  | .member _ _ _ _ _ _ bs _ _ _ _ hexprs hlocals =>
      have hall := hexprs.accounts.trans hlocals.accounts
      simpa [BoundMember.creations, BoundExpr.creationsOf, Function.comp_def] using hall

/-- Every anonymous type made for members is that of a creation in them. -/
theorem BindsMembers.accounts {ms : List MemberDecl} {s s' : Store} {bound : List BoundMember}
    (h : BindsMembers c ms s bound s') :
    Accounts s s' ((BoundMember.creationsOf bound).map Prod.snd) := by
  match h with
  | .nil _ => exact .of_registry rfl
  | .cons _ _ _ _ _ _ _ hm hms =>
      simpa [BoundMember.creationsOf] using hm.accounts.trans hms.accounts

end

/-- The anonymous types that there are once members have been bound are those of their
creations. -/
theorem BindsMembers.mem_types_iff {ms : List MemberDecl} {s : Store} {bound : List BoundMember}
    (h : BindsMembers (ofProgram p nullable file) ms (ofProgram p nullable file).store bound s)
    {a : AnonymousType} :
    a ∈ s.registry.types ↔
      ∃ node ∈ (BoundMember.creationsOf bound).map Prod.snd, node.anonymousType? = some a := by
  constructor
  · intro ha
    exact (h.accounts a ha).resolve_left List.not_mem_nil
  · rintro ⟨node, hnode, htype⟩
    obtain ⟨x, hx, rfl⟩ := List.mem_map.mp hnode
    obtain ⟨_, _, type, _, _, _, _, hcreation, hfits⟩ := h.fits .refl x hx
    rw [hcreation] at htype
    obtain rfl := Option.some.inj htype
    exact hfits.registered

end Compilation

/-! ## The listing -/

namespace CommandLine

/-- A creation is listed with its anonymous type. -/
theorem map_type_ofNode? (member : ContainingMember) (b : BoundExpr) :
    (Creation.ofNode? member b).map (·.type) = b.anonymousType? := by
  cases b <;> rfl

/-- A creation node is a creation with an anonymous type. -/
theorem exists_ofNode? {b : BoundExpr} (h : b.isCreation = true) (member : ContainingMember) :
    ∃ x, Creation.ofNode? member b = some x := by
  cases b with
  | creation => exact ⟨_, rfl⟩
  | _ => cases h

/-- Every creation that is found is listed. -/
theorem forall₂_ofNode? {found : List (ContainingMember × BoundExpr)}
    (h : ∀ x ∈ found, x.2.isCreation = true) :
    List.Forall₂ (fun x y => Creation.ofNode? x.1 x.2 = some y) found
      (found.filterMap fun x => Creation.ofNode? x.1 x.2) := by
  induction found with
  | nil => exact .nil
  | cons x found ih =>
      obtain ⟨y, hy⟩ := exists_ofNode? (h x List.mem_cons_self) x.1
      rw [List.filterMap_cons, hy]
      exact .cons hy (ih fun x hx => h x (List.mem_cons_of_mem _ hx))

/-- The anonymous types of what is listed are those of the creations. -/
theorem exists_type_iff {bound : List BoundMember} {a : AnonymousType} :
    (∃ x ∈ creationsIn bound, x.type = a) ↔
      ∃ node ∈ (BoundMember.creationsOf bound).map Prod.snd, node.anonymousType? = some a := by
  constructor
  · rintro ⟨x, hx, rfl⟩
    obtain ⟨⟨member, node⟩, hy, hnode⟩ := List.mem_filterMap.mp hx
    refine ⟨node, List.mem_map_of_mem hy, ?_⟩
    rw [← map_type_ofNode? member]
    exact congrArg (Option.map (·.type)) hnode
  · rintro ⟨node, hnode, htype⟩
    obtain ⟨y, hy, rfl⟩ := List.mem_map.mp hnode
    rw [← map_type_ofNode? y.1] at htype
    obtain ⟨x, hx, htype⟩ := Option.map_eq_some_iff.mp htype
    exact ⟨x, List.mem_filterMap.mpr ⟨y, hy, hx⟩, htype⟩

end CommandLine

open CommandLine (Creation creationsIn)

/-- `c.Lists s ms bound` says that the creations of the members `ms` are listed as they stand in the
source, where the members have been bound to `bound` and binding has left `s`. -/
structure Compilation.Lists (c : Compilation) (s : Store) (ms : List MemberDecl)
    (bound : List BoundMember) : Prop where
  /-- The expressions are those of the source, each with its creations. -/
  exprs : List.Forall₂ (fun x y => y.1 = x.1 ∧ (c.context (some x.1)).Keeps s x.2 y.2)
    (MemberDecl.placedOf ms) (BoundMember.placedOf bound)
  /-- The creations are those of the expressions in their order. -/
  order : BoundMember.creationsOf bound = BoundMember.creationsAt (BoundMember.placedOf bound)
  /-- Each of them is listed. -/
  listed : List.Forall₂ (fun x y => Creation.ofNode? x.1 x.2 = some y)
    (BoundMember.creationsOf bound) (creationsIn bound)
  /-- Their types are the anonymous types that there are. -/
  types : ∀ a, a ∈ s.registry.types ↔ ∃ x ∈ creationsIn bound, x.type = a

/-- The creations of a program from source text are listed as they stand in it. For every expression
of every member and of every local function, the nodes for creations are those of its creations, one
for each and in the order of their words `new`, apart from creations in the second part of a
conditional access whose target has mistakes, has no type or has one that does not admit null. All
of these nodes are listed, those of a member's own expressions before those of its local functions
and members in their order, and their types are the anonymous types of the registry. Whether a
target can be accessed is asked of the store at the end, where it is bound to the node that it has
in the tree. -/
theorem bindAll_listing [Text.CharacterNames] {source : List Char} {p : Program}
    (hp : Program.parse source = .ok p) (nullable : Option Bool) (file : Option String) :
    let c := Compilation.ofProgram p nullable file
    ∃ members, c.bindAll.result = .ok members ∧ c.Lists c.bindAll.store p.members members := by
  intro c
  obtain ⟨members, s, hmembers, hresult, hstore⟩ :=
    Compilation.bindAll_total nullable file (Program.parse_readable hp)
  have hcreations : ∀ x ∈ BoundMember.creationsOf members, x.2.isCreation = true :=
    fun _ => BoundMember.isCreation_of_mem_creationsOf
  refine ⟨members, hresult, ?_, BoundMember.creationsOf_eq members,
    CommandLine.forall₂_ofNode? hcreations, ?_⟩
  · have hsources := hmembers.source_creations .refl hmembers.reaches (.refl s)
    rw [hstore]
    refine ((List.forall₂_and_left _ _).mpr ⟨placed_ascending hp, hsources⟩).imp ?_
    rintro x y ⟨hx, hmember, hkept⟩
    exact ⟨hmember, hkept, hkept ▸ hx.sublist (Context.reached_sublist _ _ _ _)⟩
  · intro a
    rw [hstore, CommandLine.exists_type_iff]
    exact hmembers.mem_types_iff

/-- A number does not admit null, so the creation in the access to `1` is not reached. The one
around it is listed, and then that of the local function, though it stands first. -/
theorem bindAll_listing_of_unreached :
    let source := ("method m \x7b local f \x7b new \x7b \x7d; \x7d " ++
      "new \x7b a = 1?.x(new \x7b \x7d) \x7d; \x7d").toList
    ∃ p, Program.parse source = .ok p ∧
      let c := Compilation.ofProgram p none none
      ∃ members, c.bindAll.result = .ok members ∧
        c.Lists c.bindAll.store p.members members ∧
        (creationsIn members).map (fun x => (x.member, x.new)) =
          [("m", some ⟨1, 33⟩), ("f", some ⟨1, 22⟩)] := by
  intro source
  -- The name keeps unification from running the compilation.
  obtain ⟨p, hp, hlisted⟩ : ∃ p, Program.parse source = .ok p ∧
      (Compilation.ofProgram p none none).bindAll.result.toOption.map (fun members =>
        (creationsIn members).map fun x => (x.member, x.new)) =
          some [("m", some ⟨1, 33⟩), ("f", some ⟨1, 22⟩)] :=
    ⟨_, rfl, by decide +kernel⟩
  obtain ⟨members, hresult, hlisting⟩ := bindAll_listing hp none none
  rw [hresult] at hlisted
  exact ⟨p, hp, members, hresult, hlisting, Option.some.inj hlisted⟩

end AnonymousObjects
