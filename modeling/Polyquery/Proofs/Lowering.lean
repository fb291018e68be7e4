import Polyquery.Proofs.Outcome
import Polyquery.Query.Compiler

/-! What filters become. A compiler makes one condition of a filter and a chain of filters; the cases are stated here
once. Main statement: what holds in each case holds of every filter and of every row of filters that compile. -/

namespace Polyquery

open Sql Fragment

theorem ofText?_of_ofValue {operator : String} {op : Operator} (h : Operator.ofValue (.text operator) = .ok op) :
    Operator.ofText? operator = some op := by
  have hplain : (Value.text operator).plain = operator := rfl
  rw [Operator.ofValue, hplain] at h
  split at h
  case h_1 found hfound =>
    cases h
    exact hfound
  case h_2 => cases h

theorem ofValue_of_ofText? {operator : String} {op : Operator} (h : Operator.ofText? operator = some op) :
    Operator.ofValue (.text operator) = .ok op := by
  have hplain : (Value.text operator).plain = operator := rfl
  rw [Operator.ofValue, hplain, h]

/-- A property of filters and their conditions, and one of rows of filters and their chains, that hold of filters if
they hold of their parts. -/
structure Lowering (c : Compiler) (P : Filter → Option Condition → Prop) (Q : List Filter → Chain → Prop) : Prop where
  basic : ∀ {column operator : String} {value : Value} {connective : Connective} {op : Operator},
    Operator.ofText? operator = some op →
      P (.basic column operator value connective) (some (.ofComparison (reference column) op value))
  isIn : ∀ {column : String} {values : List Value} {negated : Bool} {connective : Connective},
    ¬c.maxInValues < values.length → values.isEmpty = false →
      P (.isIn column values negated connective) (some (.isIn (reference column) values negated))
  isInNothing : ∀ {column : String} {negated : Bool} {connective : Connective}, ¬c.maxInValues < 0 →
    P (.isIn column [] negated connective) (some (.constant negated))
  isNull : ∀ {column : String} {negated : Bool} {connective : Connective},
    P (.isNull column negated connective) (some (.isNull (reference column) negated))
  between : ∀ {column : String} {low high : Value} {negated : Bool} {connective : Connective},
    P (.between column low high negated connective) (some (.between (reference column) low high negated))
  json : ∀ {path operator : String} {value : Value} {connective : Connective} {op : Operator} {subject : Fragment},
    Operator.ofText? operator = some op →
      jsonExtract c.dialect (reference ((Text.splitDots path).headD ""))
        (JsonPath.validate (Text.splitDots path).tail) = .ok subject →
      P (.json path operator value connective) (some (.ofComparison subject op value))
  group : ∀ {query : QueryOf Filter} {connective : Connective} {chain : Chain}, Q query.filters chain →
    P (.group query connective) (if chain.isEmpty then none else some (.group chain))
  nil : Q [] []
  leftOut : ∀ {filter : Filter} {rest : List Filter} {chain : Chain}, P filter none → Q rest chain →
    Q (filter :: rest) chain
  cons : ∀ {filter : Filter} {rest : List Filter} {condition : Condition} {chain : Chain},
    P filter (some condition) → Q rest chain → Q (filter :: rest) ((filter.connective, condition) :: chain)

namespace Lowering

variable {c : Compiler} {P : Filter → Option Condition → Prop} {Q : List Filter → Chain → Prop}

mutual

theorem condition? (H : Lowering c P Q) : (filter : Filter) → (condition? : Option Condition) →
    c.condition? filter = .ok condition? → P filter condition?
  | .basic column operator value _, _, h => by
      rw [Compiler.condition?] at h
      obtain ⟨op, hop, hcondition⟩ := bind_eq_ok.1 h
      cases pure_eq_ok.1 hcondition
      exact H.basic (ofText?_of_ofValue hop)
  | .isIn column values negated _, _, h => by
      rw [Compiler.condition?] at h
      split at h
      case isTrue => cases h
      case isFalse hlength =>
        cases values with
        | nil =>
            cases pure_eq_ok.1 h
            exact H.isInNothing hlength
        | cons value values =>
            cases pure_eq_ok.1 h
            exact H.isIn hlength rfl
  | .isNull column negated _, _, h => by
      rw [Compiler.condition?] at h
      cases pure_eq_ok.1 h
      exact H.isNull
  | .between column low high negated _, _, h => by
      rw [Compiler.condition?] at h
      cases pure_eq_ok.1 h
      exact H.between
  | .json path operator value _, _, h => by
      rw [Compiler.condition?] at h
      obtain ⟨op, hop, hrest⟩ := bind_eq_ok.1 h
      obtain ⟨subject, hsubject, hcondition⟩ := bind_eq_ok.1 hrest
      cases pure_eq_ok.1 hcondition
      exact H.json (ofText?_of_ofValue hop) hsubject
  | .group query _, _, h => by
      rw [Compiler.condition?] at h
      obtain ⟨chain, hchain, hcondition⟩ := bind_eq_ok.1 h
      cases pure_eq_ok.1 hcondition
      exact H.group (groupChain H query chain hchain)
  | .other value, _, h => by
      rw [Compiler.condition?] at h
      cases h

theorem groupChain (H : Lowering c P Q) : (query : QueryOf Filter) → (chain : Chain) →
    c.groupChain query = .ok chain → Q query.filters chain
  | ⟨_, _, filters, _, _, _, _, _, _, _, _⟩, chain, h => by
      rw [Compiler.groupChain] at h
      exact filterChain H filters chain h

theorem filterChain (H : Lowering c P Q) : (filters : List Filter) → (chain : Chain) →
    c.filterChain filters = .ok chain → Q filters chain
  | [], _, h => by
      rw [Compiler.filterChain] at h
      cases pure_eq_ok.1 h
      exact H.nil
  | filter :: rest, _, h => by
      rw [Compiler.filterChain] at h
      obtain ⟨condition?, hcondition?, hmore⟩ := bind_eq_ok.1 h
      obtain ⟨others, hothers, hchain⟩ := bind_eq_ok.1 hmore
      cases pure_eq_ok.1 hchain
      have hfilter := Lowering.condition? H filter condition? hcondition?
      have hrest := filterChain H rest others hothers
      cases condition? with
      | none => exact H.leftOut hfilter hrest
      | some condition => exact H.cons hfilter hrest

end

end Lowering

end Polyquery
