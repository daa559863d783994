import CondSat.Solver.Circuit

/-! # Search for a satisfying assignment

Conflict-driven search over clauses: unit propagation with two watched
literals a clause, learning of the first implication point at every conflict,
and a jump back to the level where the learned clause becomes a unit.  The
search takes a bounded number of steps and may end without a decision. -/
set_option autoImplicit false
namespace CondSat.Solver

open Wire (negateLiteral)

structure Search where
  clauses : Array (Array Nat)
  /-- By literal: the clauses that watch it. -/
  watches : Array (Array Nat)
  /-- By variable: its value. -/
  values : Array (Option Bool)
  /-- By variable: the level at which it got its value. -/
  levels : Array Nat
  /-- By variable: the clause that forced its value. -/
  reasons : Array (Option Nat)
  /-- The literals made true, the oldest first. -/
  trail : Array Nat
  /-- The length of the trail at every decision. -/
  marks : Array Nat
  /-- How much of the trail has been propagated. -/
  head : Nat
  /-- By variable: how often it took part in conflicts, recent ones counting more. -/
  scores : Array Nat
  bump : Nat
  /-- By variable: the value it had last. -/
  phases : Array Bool

namespace Search

inductive Outcome where
  | satisfied (values : Array (Option Bool))
  | unsatisfied
  | undecided

def literalValue (s : Search) (code : Nat) : Option Bool :=
  (s.values.getD (code / 2) none).map fun value => value != (code % 2 == 1)

def level (s : Search) : Nat := s.marks.size

def assign (s : Search) (code : Nat) (reason : Option Nat) : Search :=
  let index := code / 2
  let value := code % 2 == 0
  { s with
    values := s.values.setIfInBounds index (some value)
    levels := s.levels.setIfInBounds index s.marks.size
    reasons := s.reasons.setIfInBounds index reason
    phases := s.phases.setIfInBounds index value
    trail := s.trail.push code }

def watch (s : Search) (code clause : Nat) : Search :=
  { s with watches := s.watches.modify code (·.push clause) }

def openPlace (s : Search) (clause : Array Nat) : Nat → Nat → Option Nat
  | 0, _ => none
  | fuel + 1, place =>
    if clause.size ≤ place then none
    else if s.literalValue (clause.getD place 0) == some false then
      openPlace s clause fuel (place + 1)
    else some place

/-- Look at the clauses that watch a literal which has become false, from
`place` on; `kept` are those that go on watching it.  Stops at a conflict. -/
def visit (code : Nat) (watching : Array Nat) :
    Nat → Nat → Array Nat → Search → Option Nat × Search
  | 0, _, kept, s => (none, { s with watches := s.watches.setIfInBounds code kept })
  | fuel + 1, place, kept, s =>
    if watching.size ≤ place then
      (none, { s with watches := s.watches.setIfInBounds code kept })
    else
      let index := watching.getD place 0
      let clause := s.clauses.getD index #[]
      let clause := if clause.getD 0 0 == code then clause.swapIfInBounds 0 1 else clause
      let first := clause.getD 0 0
      if s.literalValue first == some true then
        let s := { s with clauses := s.clauses.setIfInBounds index clause }
        visit code watching fuel (place + 1) (kept.push index) s
      else
        match openPlace s clause clause.size 2 with
        | some other =>
          let moved := clause.getD other 0
          let s := { s with
            clauses := s.clauses.setIfInBounds index (clause.swapIfInBounds 1 other) }
          visit code watching fuel (place + 1) kept (s.watch moved index)
        | none =>
          let s := { s with clauses := s.clauses.setIfInBounds index clause }
          let kept := kept.push index
          if s.literalValue first == some false then
            let rest := watching.extract (place + 1) watching.size
            (some index, { s with watches := s.watches.setIfInBounds code (kept ++ rest) })
          else visit code watching fuel (place + 1) kept (s.assign first (some index))

def propagate : Nat → Search → Option Nat × Search
  | 0, s => (none, s)
  | fuel + 1, s =>
    if s.trail.size ≤ s.head then (none, s)
    else
      let code := negateLiteral (s.trail.getD s.head 0)
      let watching := s.watches.getD code #[]
      let s := { s with head := s.head + 1, watches := s.watches.setIfInBounds code #[] }
      match visit code watching (watching.size + 1) 0 #[] s with
      | (some conflict, s) => (some conflict, s)
      | (none, s) => propagate fuel s

def backtrack (s : Search) (level : Nat) : Search :=
  if s.marks.size ≤ level then s
  else
    let keep := s.marks.getD level 0
    let values := s.trail.foldl (fun values code => values.setIfInBounds (code / 2) none)
      s.values keep
    { s with
      values
      trail := s.trail.extract 0 keep
      marks := s.marks.extract 0 level
      head := keep }

structure Analysis where
  seen : Array Bool
  /-- Literals of lower levels that take part in the conflict. -/
  learned : Array Nat
  /-- Marked literals of the current level still to be resolved. -/
  pending : Nat
  search : Search

def Analysis.mark (a : Analysis) (code : Nat) : Analysis :=
  let index := code / 2
  let level := a.search.levels.getD index 0
  if a.seen.getD index true || level == 0 then a
  else
    let s := a.search
    let search := { s with scores := s.scores.modify index (· + s.bump) }
    let seen := a.seen.setIfInBounds index true
    if level == search.marks.size then { a with seen, search, pending := a.pending + 1 }
    else { a with seen, search, learned := a.learned.push code }

/-- Resolve backwards along the trail until one literal of the current level
is left; the result is its negation. -/
def Analysis.resolve : Nat → Nat → Array Nat → Analysis → Nat × Analysis
  | 0, _, _, a => (0, a)
  | fuel + 1, place, clause, a =>
    let a := clause.foldl Analysis.mark a
    let rec next : Nat → Nat
      | 0 => 0
      | place + 1 =>
        if a.seen.getD (a.search.trail.getD place 0 / 2) false then place else next place
    let place := next place
    let code := a.search.trail.getD place 0
    if a.pending ≤ 1 then (negateLiteral code, a)
    else
      let reason := (a.search.reasons.getD (code / 2) none).getD 0
      let clause := (a.search.clauses.getD reason #[]).filter (· != code)
      resolve fuel place clause { a with pending := a.pending - 1 }

def highest (s : Search) (codes : Array Nat) : Nat :=
  (codes.foldl (fun (best : Nat × Nat × Nat) code =>
    let (place, top, index) := best
    let level := s.levels.getD (code / 2) 0
    if top < level then (index, level, index + 1) else (place, top, index + 1)) (0, 0, 0)).1

/-- Whether a literal of a learned clause follows from the others: its reason
holds marked literals only. -/
def Analysis.isImplied (a : Analysis) (code : Nat) : Bool :=
  match a.search.reasons.getD (code / 2) none with
  | none => false
  | some reason => (a.search.clauses.getD reason #[]).all fun other =>
    other / 2 == code / 2 || a.seen.getD (other / 2) false
      || a.search.levels.getD (other / 2) 0 == 0

def learn (s : Search) (conflict : Nat) : Option Search :=
  if s.level == 0 then none
  else
    let start : Analysis :=
      ⟨Array.replicate s.values.size false, #[], 0, s⟩
    let (code, a) := Analysis.resolve (s.trail.size + 1) s.trail.size
      (s.clauses.getD conflict #[]) start
    let needed := a.learned.filter fun other => !a.isImplied other
    let s := { a.search with bump := a.search.bump + a.search.bump / 16 + 1 }
    if needed.isEmpty then some ((s.backtrack 0).assign code none)
    else
      let place := s.highest needed
      let learned := needed.swapIfInBounds 0 place
      let other := learned.getD 0 0
      let level := s.levels.getD (other / 2) 0
      let s := s.backtrack level
      let index := s.clauses.size
      let s := { s with clauses := s.clauses.push (#[code] ++ learned) }
      let s := (s.watch code index).watch other index
      some (s.assign code (some index))

def pick (s : Search) : Option Nat :=
  (s.values.foldl (fun (best : Option (Nat × Nat) × Nat) value =>
    let (found, index) := best
    match value, found with
    | some _, _ => (found, index + 1)
    | none, none => (some (index, s.scores.getD index 0), index + 1)
    | none, some (_, top) =>
      let score := s.scores.getD index 0
      (if top ≤ score then some (index, score) else found, index + 1)) (none, 0)).1.map (·.1)

def decide (s : Search) (index : Nat) : Search :=
  let code := if s.phases.getD index false then 2 * index else 2 * index + 1
  { s with marks := s.marks.push s.trail.size }.assign code none

/-- Propagate, then learn or decide.  After `patience` conflicts the search
starts over with what it has learned and with more patience. -/
def steps : Nat → Nat → Nat → Search → Outcome
  | 0, _, _, _ => .undecided
  | fuel + 1, patience, conflicts, s =>
    match propagate (s.values.size + 1) s with
    | (some conflict, s) =>
      match s.learn conflict with
      | none => .unsatisfied
      | some s => steps fuel patience (conflicts + 1) s
    | (none, s) =>
      if patience ≤ conflicts then
        steps fuel (patience + patience / 8) 0 (s.backtrack 0)
      else
        match s.pick with
        | none => .satisfied s.values
        | some index => steps fuel patience conflicts (s.decide index)

def load (s : Search) (clause : Clause) : Option Search :=
  match clause with
  | [] => none
  | [code] =>
    match s.literalValue code with
    | some false => none
    | some true => some s
    | none => some (s.assign code none)
  | first :: second :: _ =>
    let index := s.clauses.size
    let s := { s with clauses := s.clauses.push clause.toArray }
    some ((s.watch first index).watch second index)

def empty (size : Nat) : Search where
  clauses := #[]
  watches := Array.replicate (2 * size) #[]
  values := Array.replicate size none
  levels := Array.replicate size 0
  reasons := Array.replicate size none
  trail := #[]
  marks := #[]
  head := 0
  scores := Array.replicate size 0
  bump := 1
  phases := Array.replicate size false

end Search

def searchLimit : Nat := 200000

def Circuit.solve (circuit : Circuit) : Search.Outcome :=
  match circuit.clauses.foldl (fun s clause => s.bind (·.load clause))
      (some (Search.empty circuit.size)) with
  | none => .unsatisfied
  | some s => Search.steps searchLimit 64 0 s

end CondSat.Solver
