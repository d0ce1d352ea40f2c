import ShiftReduce.Proofs.Economy
import ShiftReduce.Proofs.Parser.Conservation

/-!
# Counting nodes

The builder counts the nodes of the trees that it makes. As long as the stack does not overflow, it has
made as many as it has reduced, and all of them are in the trees on the stack.
-/

namespace ShiftReduce.Calculator

open ShiftReduce.Parser

/-! ## The size of a tree -/

def Term.size : Term → Nat
  | mul left _ | div left _ => left.size + 1
  | number _ => 1

def Expr.size : Expr → Nat
  | add left right | sub left right => left.size + right.size + 1
  | term t => t.size + 1

/-- The number of nodes in the tree that a value is, if it is one. -/
def Node.size : Node → Nat
  | none | number _ => 0
  | expr e => e.size
  | term t => t.size

/-! ## The stack without junk -/

/-- A terminal or the error token, with a number if it is one and with nothing otherwise. -/
def Tidy (token : Token) (value : Node) : Prop :=
  token ∈ grammar.terminals ++ [grammar.reserved] ∧
    if token = .number then ∃ n, value = .number n else value = .none

/-- The typing of the calculator, where values of no kind are not junk but nothing. -/
def tidyTyping : Typing (Fin 12) Token Production Node (Option Kind) where
  holds
    | some kind => kind.Holds
    | none => (· = .none)
  terminals := typing.terminals
  carried token := some (typing.carried token)
  kind s := if s = grammar.start then none else some (typing.kind s)
  wanted production := (typing.wanted production).map some
  made production := some (typing.made production)
  result := some typing.result
  rank := typing.rank

theorem fits_of_tidyTyping {kind : Option Kind} {value : Node}
    (h : tidyTyping.Fits (some kind) value) : typing.Fits kind value := by
  rintro k rfl
  exact h _ rfl

theorem eq_none_of_tidyTyping {value : Node} (h : tidyTyping.Fits (some none) value) :
    value = .none :=
  h _ rfl

theorem sound_tidyTyping : tidyTyping.Sound grammar.toTable Builder.semantics where
  start := rfl
  errorToken := by rintro e ⟨⟩
  goto := sound.goto
  shift := by decide +kernel
  accept := by decide +kernel
  reduce := by decide +kernel
  arity := by decide +kernel
  acts _ _ _ hentry values depth actions hfits := by
    refine acts hentry values depth actions ?_
    exact (List.forall₂_map_left_iff.mp hfits).imp fun _ _ => fits_of_tidyTyping

theorem Tidy.offered {token : Token} {value : Node} (h : Tidy token value) :
    tidyTyping.Offered token value := by
  obtain ⟨hterminal, hvalue⟩ := h
  refine ⟨hterminal, Typing.fits_some ?_⟩
  cases token <;> exact hvalue

theorem size_of_offered {token : Token} {value : Node} (h : tidyTyping.Offered token value) :
    value.size = 0 := by
  have hvalue := h.2 _ rfl
  cases token with
  | number =>
    obtain ⟨n, rfl⟩ := hvalue
    rfl
  | _ =>
    obtain rfl : value = .none := hvalue
    rfl

theorem conserves : tidyTyping.Conserves grammar.toTable Builder.semantics Node.size Builder.nodes where
  sound := sound_tidyTyping
  blank := rfl
  offered _ _ := size_of_offered
  reduce s token production hentry values depth actions result hfits hreduce := by
    cases production with
    | start =>
      have hnever : ∀ s token, grammar.entry s token ≠ .reduce .start := by decide +kernel
      exact absurd hentry (hnever s token)
    | sum | difference =>
      obtain ⟨left, operator, right, rfl, hleft, hoperator, hright⟩ :=
        Typing.exists_of_fits_three hfits
      obtain ⟨e, rfl⟩ := hleft _ rfl
      obtain rfl := eq_none_of_tidyTyping hoperator
      obtain ⟨t, rfl⟩ := hright _ rfl
      cases hreduce
      refine ⟨?_, rfl⟩
      simp [Node.size, Expr.size, Reduced.map, Builder.algebra, Builder.make, Node.exprs]
    | single =>
      obtain ⟨value, rfl, hvalue⟩ := Typing.exists_of_fits_one hfits
      obtain ⟨t, rfl⟩ := hvalue _ rfl
      cases hreduce
      exact ⟨rfl, rfl⟩
    | product | quotient =>
      obtain ⟨left, operator, right, rfl, hleft, hoperator, hright⟩ :=
        Typing.exists_of_fits_three hfits
      obtain ⟨t, rfl⟩ := hleft _ rfl
      obtain rfl := eq_none_of_tidyTyping hoperator
      obtain ⟨n, rfl⟩ := hright _ rfl
      cases hreduce
      refine ⟨?_, rfl⟩
      simp [Node.size, Term.size, Reduced.map, Builder.algebra, Builder.make, Node.terms]
    | literal =>
      obtain ⟨value, rfl, hvalue⟩ := Typing.exists_of_fits_one hfits
      obtain ⟨n, rfl⟩ := hvalue _ rfl
      cases hreduce
      exact ⟨rfl, rfl⟩
  onSyntaxError _ := rfl
  bottom := by decide +kernel
  accept := by decide +kernel

/-! ## Runs of the builder -/

/-- A fresh builder's run, where numbers are posted with a number and other tokens with nothing, comes
to its end. At every point of it where the stack has not overflowed, as many nodes have been counted as
reductions were made, the trees on the stack have so many nodes, and so has the expression that is
accepted. -/
theorem trace_counts_nodes (capacity : Nat) {limit : Nat} (hlimit : 3 ≤ limit)
    {posts : List (Token × Node)} (hposts : ∀ post ∈ posts, Tidy post.1 post.2) :
    let run := (create grammar.toTable Builder.semantics {} capacity).trace grammar.toTable
      Builder.semantics limit (posts.map fun post => .post post.1 post.2)
    run.2 = none ∧ ∀ p ∈ run.1, p.isOverflowed = false →
      p.actions.nodes = p.stats.reductions ∧ load Node.size p.frames = p.stats.reductions ∧
      ∀ value, p.status = .accepted value →
        ∃ e, value = .expr e ∧ e.size = p.stats.reductions := by
  intro run
  have hoffered : ∀ post ∈ posts, tidyTyping.Offered post.1 post.2 :=
    fun post hpost => (hposts post hpost).offered
  have hoffers : ∀ command ∈ posts.map fun post => Command.post post.1 post.2,
      command.Offers tidyTyping.Offered := by
    intro command hcommand
    obtain ⟨post, hpost, rfl⟩ := List.mem_map.mp hcommand
    exact hoffered post hpost
  have hsafe : Safe limit Node.exprs run :=
    sound_tidyTyping.safe (by decide) Node.exprs (fun _ h => h) (fun _ => rfl) {} capacity limit
      hoffers
  refine ⟨hsafe.answered hlimit, ?_⟩
  intro p hp hlive
  have hconserved := conserves.trace thrifty rfl rfl hoffered p hp hlive
  refine ⟨hconserved.counted, hconserved.held, ?_⟩
  intro value hvalue
  obtain ⟨e, rfl, -⟩ := hsafe.accepted p hp value hvalue
  exact ⟨e, rfl, hconserved.accepted _ hvalue⟩

/-- `3 + 4`, with just enough room for it. -/
def sumPosts : List (Token × Node) :=
  [(.number, .number 3), (.add, .none), (.number, .number 4), (.finish, .none)]

/-- Two numbers, the first of them as an expression, and the sum. -/
theorem trace_counts_nodes_sumPosts :
    ∃ p ∈ ((create grammar.toTable Builder.semantics {} 5).trace grammar.toTable Builder.semantics 3
        (sumPosts.map fun post => .post post.1 post.2)).1,
      (∀ post ∈ sumPosts, Tidy post.1 post.2) ∧
      p.status = .accepted (.expr (.add (.term (.number 3)) (.number 4))) ∧
      p.actions.nodes = 4 ∧ load Node.size p.frames = 4 := by
  have htidy : ∀ post ∈ sumPosts, Tidy post.1 post.2 := by
    simp [sumPosts, Tidy, grammar]
  have hlast : (Status.accepted (.expr (.add (.term (.number 3)) (.number 4))), 4) ∈
      ((create grammar.toTable Builder.semantics {} 5).trace grammar.toTable Builder.semantics 3
        (sumPosts.map fun post => .post post.1 post.2)).1.map
          fun p => (p.status, p.stats.reductions) := by
    decide +kernel
  obtain ⟨p, hp, hseen⟩ := List.mem_map.mp hlast
  obtain ⟨hstatus, hreductions⟩ := Prod.mk.inj hseen
  obtain ⟨-, hrun⟩ := trace_counts_nodes 5 (Nat.le_refl 3) htidy
  have hlive : p.isOverflowed = false := by
    rw [isOverflowed, hstatus]
  obtain ⟨hnodes, hload, -⟩ := hrun p hp hlive
  refine ⟨p, hp, htidy, hstatus, ?_, ?_⟩
  · rw [hnodes, hreductions]
  · rw [hload, hreductions]

end ShiftReduce.Calculator
