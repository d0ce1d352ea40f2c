import ShiftReduce.Greeting.Counted
import ShiftReduce.Greeting.Plain
import ShiftReduce.Proofs.Kinds
import ShiftReduce.Proofs.Parser.Thrift

/-!
# The samples make no reduction in vain

All four tables are thrifty. So their runs undo a reduction only where the stack overflows, and a
syntax error names a state that has no action for the token, before and after a recovery.
-/

namespace ShiftReduce

open ShiftReduce.Parser

/-! ## Four thrifty tables -/

theorem Calculator.thrifty : Thrifty grammar.toTable := by decide +kernel

namespace Greeting.Plain

instance : Fintype Token where
  elems := ⟨grammar.tokens, by decide⟩
  complete := by rintro (_ | _) <;> decide

instance : Fintype Production where
  elems := ⟨grammar.productions, by decide⟩
  complete := by rintro (_ | _) <;> decide

theorem thrifty : Thrifty grammar.toTable := by decide +kernel

end Greeting.Plain

namespace Greeting.Counted

instance : Fintype Token where
  elems := ⟨grammar.tokens, by decide⟩
  complete := by rintro (_ | _) <;> decide

instance : Fintype Production where
  elems := ⟨grammar.productions, by decide⟩
  complete := by rintro (_ | _) <;> decide

theorem thrifty : Thrifty grammar.toTable := by decide +kernel

end Greeting.Counted

theorem NumberList.thrifty : Thrifty grammar.toTable := by decide +kernel

/-! ## Their runs -/

/-- In the runs of all four samples an offering that ends in a rejection has made no reduction, only
tokens that are taken are worth one, and the errors are those of states without an action. -/
theorem no_reduction_in_vain :
    NothingInVain Calculator.grammar.toTable ∧
    NothingInVain Greeting.Plain.grammar.toTable ∧
    NothingInVain Greeting.Counted.grammar.toTable ∧
    NothingInVain NumberList.grammar.toTable :=
  ⟨Calculator.thrifty.nothingInVain, Greeting.Plain.thrifty.nothingInVain,
    Greeting.Counted.thrifty.nothingInVain, NumberList.thrifty.nothingInVain⟩

section

open NumberList

/-- Behind `(1` a comma is worth two reductions. A star is rejected there at no cost, and the error
names the state behind the number. -/
theorem no_reduction_in_vain_halfList :
    ∃ p q r s, tight.postAll grammar.toTable Builder.semantics 4 halfList = .ok p ∧
      p.isDone = false ∧
      p.post grammar.toTable Builder.semantics 4 .comma .none = .ok q ∧
      (p.stats.reductions, q.stats.reductions) = (0, 2) ∧
      Earns grammar.toTable Builder.semantics 4 .comma .none p ∧
      (p.opened .star).offer grammar.toTable Builder.semantics .star .none 4 =
        .ok (r, .rejected) ∧ r = p.opened .star ∧
      p.post grammar.toTable Builder.semantics 4 .star .none = .ok s ∧
      (s.lastError, s.stats.recoveries) = (some (.unexpected "star" 5), 1) ∧
      (p.Reports (.unexpected "star" 5) ∨
        Warranted grammar.toTable .star (.unexpected "star" 5)) := by
  have hruns : (do
      let p ← tight.postAll grammar.toTable Builder.semantics 4 halfList
      let q ← p.post grammar.toTable Builder.semantics 4 .comma .none
      let (_, fate) ← (p.opened .star).offer grammar.toTable Builder.semantics .star .none 4
      let s ← p.post grammar.toTable Builder.semantics 4 .star .none
      pure ((p.isDone, p.stats.reductions), (q.isOverflowed, q.stats.reductions), fate,
        s.lastError, s.stats.recoveries)).toOption =
      some ((false, 0), (false, 2), .rejected, some (.unexpected "star" 5), 1) := by
    decide +kernel
  obtain ⟨p, hp, hruns⟩ := toOption_bind_eq_some.mp hruns
  obtain ⟨q, hq, hruns⟩ := toOption_bind_eq_some.mp hruns
  obtain ⟨⟨r, fate⟩, hr, hruns⟩ := toOption_bind_eq_some.mp hruns
  obtain ⟨s, hs, hruns⟩ := toOption_bind_eq_some.mp hruns
  simp only [pure, Except.pure, Except.toOption, Option.some.injEq, Prod.mk.injEq] at hruns
  obtain ⟨⟨hrunning, hbefore⟩, ⟨hlive, hafter⟩, rfl, hlast, hrecoveries⟩ := hruns
  have hreachable : Reachable grammar.toTable Builder.semantics p :=
    (Reachable.create {} 6).postAll hp
  obtain ⟨-, -, -, hlist⟩ := no_reduction_in_vain
  obtain ⟨hposts, -⟩ := hlist Value Builder Builder.semantics p hreachable
  have hcomma := hposts hrunning 4 .comma .none
  have hstar := hposts hrunning 4 .star .none
  refine ⟨p, q, r, s, hp, hrunning, hq, ?_, hcomma.reduced q hq hlive (by omega), hr,
    hstar.rejected _ _ _ r .first hr, hs, ?_, hstar.reported s _ hs (.inl hlast)⟩
  · rw [hbefore, hafter]
  · rw [hlast, hrecoveries]

end

end ShiftReduce
