import Polyquery.Sql.Condition

/-! The truth of conditions. A comparison with null is neither true nor false, so conditions have three truth
values. Main statement: the truth of a chain, read as the alternatives between its `OR`s, is what comes of
joining its members one by one with `AND` binding closer than `OR`. -/

namespace Polyquery.Sql

/-- What a condition says of a row. -/
inductive Truth where
  | no
  | unknown
  | yes
deriving DecidableEq, Repr

namespace Truth

def and : Truth → Truth → Truth
  | no, _ => no
  | unknown, no => no
  | unknown, _ => unknown
  | yes, t => t

def or : Truth → Truth → Truth
  | yes, _ => yes
  | unknown, yes => yes
  | unknown, _ => unknown
  | no, t => t

/-- The conjunction of a row of truth values. -/
def all (ts : List Truth) : Truth := ts.foldr and yes

/-- The disjunction of a row of truth values. -/
def any (ts : List Truth) : Truth := ts.foldr or no

theorem and_assoc (s t u : Truth) : (s.and t).and u = s.and (t.and u) := by
  cases s <;> cases t <;> cases u <;> rfl

@[simp] theorem and_yes (t : Truth) : t.and yes = t := by
  cases t <;> rfl

@[simp] theorem yes_and (t : Truth) : yes.and t = t := rfl

@[simp] theorem or_no (t : Truth) : t.or no = t := by
  cases t <;> rfl

theorem and_eq_yes_iff {s t : Truth} : s.and t = yes ↔ s = yes ∧ t = yes := by
  cases s <;> cases t <;> decide

@[simp] theorem all_nil : all [] = yes := rfl

@[simp] theorem all_cons (t : Truth) (ts : List Truth) : all (t :: ts) = t.and (all ts) := rfl

@[simp] theorem any_cons (t : Truth) (ts : List Truth) : any (t :: ts) = t.or (any ts) := rfl

theorem all_append (ss ts : List Truth) : all (ss ++ ts) = (all ss).and (all ts) := by
  induction ss with
  | nil => rfl
  | cons s ss ih => rw [List.cons_append, all_cons, ih, all_cons, and_assoc]

theorem all_eq_yes_iff {ts : List Truth} : all ts = yes ↔ ∀ t ∈ ts, t = yes := by
  induction ts with
  | nil => simp
  | cons t ts ih => rw [all_cons, and_eq_yes_iff, ih, List.forall_mem_cons]

/-! ### Chains -/

/-- The rows of truth values between the `OR`s of a chain, where the first row has begun already. -/
def runsFrom (run : List Truth) : List (Connective × Truth) → List (List Truth)
  | [] => [run]
  | (.and, t) :: rest => runsFrom (run ++ [t]) rest
  | (.or, t) :: rest => run :: runsFrom [t] rest

/-- The truth of a chain: one of the rows between its `OR`s holds, all of it. The first connective says nothing,
and the empty chain is true. -/
def chain : List (Connective × Truth) → Truth
  | [] => yes
  | (_, t) :: rest => any ((runsFrom [t] rest).map all)

/-- Where all connectives are `AND`, a chain is a conjunction. -/
theorem chain_all (ts : List Truth) : chain (ts.map fun t => (.and, t)) = all ts := by
  have hrun : ∀ (ts run : List Truth), runsFrom run (ts.map fun t => (.and, t)) = [run ++ ts] := by
    intro ts
    induction ts with
    | nil => simp [runsFrom]
    | cons t ts ih => simp [runsFrom, ih]
  cases ts with
  | nil => rfl
  | cons t ts => simp [chain, hrun, any]

end Truth

/-! ### Expressions -/

/-- A Boolean expression over atoms of some kind. -/
inductive Expr (α : Type) where
  | atom (content : α)
  | both (left right : Expr α)
  | either (left right : Expr α)
deriving DecidableEq, Repr

namespace Expr

variable {α : Type}

/-- The truth of an expression under an assignment to its atoms. -/
def value (ρ : α → Truth) : Expr α → Truth
  | atom content => ρ content
  | both left right => (left.value ρ).and (right.value ρ)
  | either left right => (left.value ρ).or (right.value ρ)

/-- An expression joined with the rest of a chain. What an `OR` follows is complete. -/
def join (e : Expr α) : List (Connective × Expr α) → Expr α
  | [] => e
  | (.and, other) :: rest => join (both e other) rest
  | (.or, other) :: rest => either e (join other rest)

theorem value_join (ρ : α → Truth) (e : Expr α) (rest : List (Connective × Expr α)) :
    (e.join rest).value ρ =
      Truth.chain ((.and, e.value ρ) :: rest.map fun (connective, other) => (connective, other.value ρ)) := by
  suffices hrun : ∀ (e : Expr α) (run : List Truth), e.value ρ = Truth.all run →
      (e.join rest).value ρ = Truth.any ((Truth.runsFrom run
        (rest.map fun (connective, other) => (connective, other.value ρ))).map Truth.all) from
    hrun e [e.value ρ] (by simp)
  induction rest with
  | nil =>
      intro e run he
      simpa [join, Truth.runsFrom, Truth.any] using he
  | cons member rest ih =>
      obtain ⟨connective, other⟩ := member
      intro e run he
      cases connective with
      | and =>
          refine ih (both e other) (run ++ [other.value ρ]) ?_
          rw [value, he, Truth.all_append, Truth.all_cons, Truth.all_nil, Truth.and_yes]
      | or =>
          have hother := ih other [other.value ρ] (by simp)
          simp only [join, value, List.map_cons, Truth.runsFrom, Truth.any_cons, he, hother]

end Expr

end Polyquery.Sql
