import Mathlib.Data.List.Nodup
import Mathlib.Data.List.Perm.Basic

/-!
# The first declaration of each name

A pass over declarations keeps the first one of each name that is not taken already and drops the
others. `eachNamed` is what such a pass collects on its way, `kept` are the declarations that it
keeps and `dropped` those that it does not. `eachNamed_eq_nil_iff` says when it has nothing to
collect, if every dropped declaration gives it something.
-/

namespace AnonymousObjects.Declared

variable {α β : Type}

/-- What a pass over declarations collects: `first` of a declaration whose name is not taken, which
takes the name, and `again` of any other. -/
def eachNamed (name : α → String) (first again : α → List β) : List String → List α → List β
  | _, [] => []
  | taken, a :: as =>
    if name a ∈ taken then again a ++ eachNamed name first again taken as
    else first a ++ eachNamed name first again (taken ++ [name a]) as

/-- The first declarations of names that are not taken. -/
def kept (name : α → String) : List String → List α → List α :=
  eachNamed name (fun a => [a]) fun _ => []

/-- The declarations of names that are taken, or that an earlier one has. -/
def dropped (name : α → String) : List String → List α → List α :=
  eachNamed name (fun _ => []) fun a => [a]

variable {name : α → String} {first again : α → List β} {taken : List String} {a : α} {as : List α}

/-- No declarations, nothing collected. -/
@[simp] theorem eachNamed_nil : eachNamed name first again taken [] = [] := rfl

/-- A declaration whose name is taken is collected again. -/
theorem eachNamed_cons_of_mem (h : name a ∈ taken) :
    eachNamed name first again taken (a :: as) =
      again a ++ eachNamed name first again taken as :=
  if_pos h

/-- A declaration whose name is not taken takes it. -/
theorem eachNamed_cons_of_not_mem (h : name a ∉ taken) :
    eachNamed name first again taken (a :: as) =
      first a ++ eachNamed name first again (taken ++ [name a]) as :=
  if_neg h

/-- Of no declarations, none is kept. -/
@[simp] theorem kept_nil : kept name taken [] = [] := rfl

/-- A declaration whose name is taken is not kept. -/
theorem kept_cons_of_mem (h : name a ∈ taken) : kept name taken (a :: as) = kept name taken as :=
  eachNamed_cons_of_mem h

/-- A declaration whose name is not taken is kept. -/
theorem kept_cons_of_not_mem (h : name a ∉ taken) :
    kept name taken (a :: as) = a :: kept name (taken ++ [name a]) as :=
  eachNamed_cons_of_not_mem h

/-- Of no declarations, none is dropped. -/
@[simp] theorem dropped_nil : dropped name taken [] = [] := rfl

/-- A declaration whose name is taken is dropped. -/
theorem dropped_cons_of_mem (h : name a ∈ taken) :
    dropped name taken (a :: as) = a :: dropped name taken as :=
  eachNamed_cons_of_mem h

/-- A declaration whose name is not taken is not dropped. -/
theorem dropped_cons_of_not_mem (h : name a ∉ taken) :
    dropped name taken (a :: as) = dropped name (taken ++ [name a]) as :=
  eachNamed_cons_of_not_mem h

/-- A name that is taken may be listed once more. -/
theorem mem_append_cons_of_mem {n m : String} {more : List String} (h : m ∈ taken) :
    n ∈ taken ++ m :: more ↔ n ∈ taken ++ more := by
  simp only [List.mem_append, List.mem_cons]
  constructor
  · rintro (hn | rfl | hn)
    · exact .inl hn
    · exact .inl h
    · exact .inr hn
  · exact Or.imp_right .inr

/-- Whatever is collected is collected from one of the declarations. -/
theorem exists_of_mem_eachNamed {b : β} (h : b ∈ eachNamed name first again taken as) :
    ∃ a ∈ as, b ∈ first a ∨ b ∈ again a := by
  induction as generalizing taken with
  | nil => cases h
  | cons a as ih =>
    by_cases hmem : name a ∈ taken
    · rw [eachNamed_cons_of_mem hmem] at h
      rcases List.mem_append.mp h with h | h
      · exact ⟨a, List.mem_cons_self, .inr h⟩
      · obtain ⟨c, hc, h⟩ := ih h
        exact ⟨c, List.mem_cons_of_mem _ hc, h⟩
    · rw [eachNamed_cons_of_not_mem hmem] at h
      rcases List.mem_append.mp h with h | h
      · exact ⟨a, List.mem_cons_self, .inl h⟩
      · obtain ⟨c, hc, h⟩ := ih h
        exact ⟨c, List.mem_cons_of_mem _ hc, h⟩

/-- What is kept was declared. -/
theorem mem_of_mem_kept (h : a ∈ kept name taken as) : a ∈ as := by
  obtain ⟨b, hb, h⟩ := exists_of_mem_eachNamed h
  obtain rfl : a = b := by simpa using h
  exact hb

/-- One thing is collected from each declaration that is dropped, and the rest from those that are
kept. -/
theorem eachNamed_perm (name : α → String) (first : α → List β) (again : α → β)
    (taken : List String) (as : List α) :
    (eachNamed name first (fun a => [again a]) taken as).Perm
      ((dropped name taken as).map again ++ (kept name taken as).flatMap first) := by
  induction as generalizing taken with
  | nil => simp
  | cons a as ih =>
    by_cases hmem : name a ∈ taken
    · rw [eachNamed_cons_of_mem hmem, kept_cons_of_mem hmem, dropped_cons_of_mem hmem]
      exact (ih taken).cons (again a)
    · rw [eachNamed_cons_of_not_mem hmem, kept_cons_of_not_mem hmem,
        dropped_cons_of_not_mem hmem, List.flatMap_cons]
      exact ((ih _).append_left _).trans (List.perm_append_comm_assoc _ _ _)

/-- A name that is not taken keeps its first declaration. -/
theorem find?_kept {n : String} :
    (kept name taken as).find? (name · = n) =
      if n ∈ taken then none else as.find? (name · = n) := by
  induction as generalizing taken with
  | nil => simp
  | cons a as ih =>
    by_cases hmem : name a ∈ taken
    · rw [kept_cons_of_mem hmem, ih]
      split
      · rfl
      · next hn =>
        have hne : name a ≠ n := fun h => hn (h ▸ hmem)
        simp [hne]
    · rw [kept_cons_of_not_mem hmem]
      by_cases hn : name a = n
      · simp [hn ▸ hmem, hn]
      · simp [hn, ih, Ne.symm hn]

/-- The names of what is kept are those that are not taken. -/
theorem mem_map_kept {n : String} :
    n ∈ (kept name taken as).map name ↔ n ∉ taken ∧ n ∈ as.map name := by
  have hsome : ∀ bs : List α, n ∈ bs.map name ↔ (bs.find? (name · = n)).isSome = true := by
    simp [List.find?_isSome]
  rw [hsome, find?_kept, hsome]
  split <;> simp_all

/-- What is kept has different names. -/
theorem nodup_map_kept (name : α → String) (taken : List String) (as : List α) :
    ((kept name taken as).map name).Nodup := by
  induction as generalizing taken with
  | nil => simp
  | cons a as ih =>
    by_cases hmem : name a ∈ taken
    · rw [kept_cons_of_mem hmem]
      exact ih taken
    · rw [kept_cons_of_not_mem hmem, List.map_cons, List.nodup_cons, mem_map_kept]
      exact ⟨by simp, ih _⟩

/-- Nothing is collected from declarations of different names that are not taken, if nothing is
collected from each of them, and in no other case. -/
theorem eachNamed_eq_nil_iff (hagain : ∀ a, again a ≠ []) :
    eachNamed name first again taken as = [] ↔
      (as.map name).Nodup ∧ (∀ a ∈ as, name a ∉ taken) ∧ ∀ a ∈ as, first a = [] := by
  induction as generalizing taken with
  | nil => simp
  | cons a as ih =>
    by_cases hmem : name a ∈ taken
    · simp [eachNamed_cons_of_mem hmem, hagain a, hmem]
    · rw [eachNamed_cons_of_not_mem hmem, List.append_eq_nil_iff, ih]
      simp only [List.map_cons, List.nodup_cons, List.forall_mem_cons, List.mem_append,
        List.mem_singleton, not_or, forall_and, List.mem_map, not_exists, not_and]
      tauto

/-- Declarations of different names that are not taken are all kept. -/
theorem kept_eq_self (hnodup : (as.map name).Nodup) (htaken : ∀ a ∈ as, name a ∉ taken) :
    kept name taken as = as := by
  induction as generalizing taken with
  | nil => rfl
  | cons a as ih =>
    obtain ⟨hfresh, hnodup⟩ := List.nodup_cons.mp hnodup
    obtain ⟨ha, has⟩ := List.forall_mem_cons.mp htaken
    rw [kept_cons_of_not_mem ha, ih hnodup]
    intro b hb
    have hne : name b ≠ name a := fun h => hfresh (h ▸ List.mem_map_of_mem hb)
    simp [has b hb, hne]

end AnonymousObjects.Declared
