import Mathlib.Data.Fintype.Defs
import ShiftReduce.Proofs.Parser.Reachable

/-!
# The end of the input ends the run

The end token is posted last, and a table that never shifts it has nothing to wait for behind it.
Offered to a state, it is accepted or rejected or finds the stack full. A rejection may still be
followed by a recovery, but the end token is not dropped when it is rejected again: the run gives up.
-/

namespace ShiftReduce

variable {σ τ π ν α : Type}

/-- No state shifts the token. -/
def Table.NeverShifts (table : Table σ τ π) (token : τ) : Prop :=
  ∀ s next, table.entry s token ≠ .shift next

instance [Fintype σ] [DecidableEq σ] [DecidableEq π] (table : Table σ τ π) (token : τ) :
    Decidable (table.NeverShifts token) :=
  inferInstanceAs (Decidable (∀ _ _, _))

namespace Parser

variable {table : Table σ τ π} {sem : Semantics π ν α} {token : τ} {value : ν} {limit : Nat}
  {p q : Parser σ τ π ν α} {l : Layout (Frame σ ν)} {fate : Fate} {error : ParseError}

theorem isAccepted_or_isErrored (h : p.isDone = true) : p.isAccepted = true ∨ p.isErrored = true := by
  unfold isDone at h
  unfold isAccepted isErrored
  cases hstatus : p.status with
  | running => rw [hstatus] at h; cases h
  | accepted v => exact .inl rfl
  | errored error => exact .inr rfl

/-! ## Offers of a token that is never shifted -/

theorem fate_ne_shifted (hnever : table.NeverShifts token) (hp : p.stack = l.stack)
    (h : p.offer table sem token value limit = .ok (q, fate)) : fate ≠ .shifted := by
  rintro rfl
  obtain ⟨_, _, _, -, heffect⟩ := exists_effect_of_offer hp h
  cases heffect with
  | @shift top next htop hentry => exact hnever _ _ hentry

theorem isDone_of_placed (hnever : table.NeverShifts token) (hp : p.stack = l.stack)
    (h : p.offer table sem token value limit = .ok (q, fate)) (hfate : fate ≠ .rejected) :
    q.isDone = true := by
  have hstatus := offer_status hp h
  cases fate with
  | shifted => exact absurd rfl (fate_ne_shifted hnever hp h)
  | accepted => exact isDone_of_accepted hstatus
  | rejected => exact absurd rfl hfate
  | overflowed => exact isDone_of_errored hstatus

theorem isDone_failed (p : Parser σ τ π ν α) (error : ParseError) :
    (p.failed error).isDone = true := by
  unfold failed
  split
  next hdone => exact hdone
  next => rfl

/-! ## Posts of the end token -/

/-- The second run is over, and it has dropped no token that the first one had not. -/
structure Closes (p q : Parser σ τ π ν α) : Prop where
  isDone_eq : q.isDone = true
  discarded_eq : q.tally.discarded = p.tally.discarded

theorem closes_of_offer (hnever : table.NeverShifts token) (hp : p.stack = l.stack)
    (h : p.offer table sem token value limit = .ok (q, fate)) (hfate : fate ≠ .rejected) :
    Closes p q :=
  ⟨isDone_of_placed hnever hp h hfate, congrArg Stats.discarded (offer_tally hp h)⟩

theorem Retries.closes (hnever : table.NeverShifts table.endToken) (hp : p.Settled)
    (h : Retries table sem limit table.endToken value p q) : Closes p q := by
  obtain ⟨frames, free, hstack⟩ := hp
  cases h with
  | @taken r fate hoffer hfate =>
    obtain ⟨hdone, hcount⟩ := closes_of_offer hnever hstack hoffer (by rintro rfl; simp at hfate)
    exact ⟨hdone, hcount⟩
  | @full r hoffer =>
    obtain ⟨hdone, hcount⟩ := closes_of_offer hnever hstack hoffer nofun
    exact ⟨hdone, hcount⟩
  | gaveUp hoffer =>
    have hcount := congrArg Stats.discarded (offer_tally hstack hoffer)
    exact ⟨rfl, hcount⟩
  | discarded _ htoken => exact absurd rfl htoken

theorem Resumes.closes (hnever : table.NeverShifts table.endToken) (hp : p.Settled)
    (h : Resumes table sem limit table.endToken value error p q) : Closes p q := by
  have hkept {e : τ} {r : Parser σ τ π ν α} {taken : Bool}
      (hrecovers : Recovers table sem limit e p r taken) :
      r.tally.discarded = p.tally.discarded := by
    rw [hrecovers.tally_eq hp]
  have hfailed (r : Parser σ τ π ν α) : (r.failed error).tally.discarded = r.tally.discarded :=
    congrArg Stats.discarded (failed_tally r error)
  cases h with
  | unprovided => exact ⟨isDone_failed p error, hfailed p⟩
  | @unrecovered _ r _ hrecovers =>
    exact ⟨isDone_failed r error, (hfailed r).trans (hkept hrecovers)⟩
  | recovered _ hrecovers hdone => exact ⟨hdone, hkept hrecovers⟩
  | retried _ hrecovers _ hretries =>
    obtain ⟨hdone, hcount⟩ := hretries.closes hnever (hrecovers.settled hp)
    exact ⟨hdone, hcount.trans (hkept hrecovers)⟩

theorem Posts.closes (hnever : table.NeverShifts table.endToken) (hp : p.Settled)
    (h : Posts table sem limit table.endToken value p q) : Closes p q := by
  cases h with
  | @taken r fate hoffer hfate =>
    obtain ⟨frames, free, hstack⟩ := hp
    obtain ⟨hdone, hcount⟩ := closes_of_offer hnever (opened_stack hstack _) hoffer
      (by rintro rfl; simp at hfate)
    exact ⟨hdone, hcount⟩
  | @full r hoffer =>
    obtain ⟨frames, free, hstack⟩ := hp
    obtain ⟨hdone, hcount⟩ := closes_of_offer hnever (opened_stack hstack _) hoffer nofun
    exact ⟨hdone, hcount⟩
  | rejected hrejects hresumes =>
    obtain ⟨hdone, hcount⟩ := hresumes.closes hnever (hrejects.settled hp)
    rw [hrejects.tally_eq hp] at hcount
    exact ⟨hdone, hcount⟩

theorem closes_of_post [DecidableEq τ] (hnever : table.NeverShifts table.endToken) (hp : p.Settled)
    (hrunning : p.isDone = false)
    (h : p.post table sem limit table.endToken value = .ok q) : Closes p q :=
  (post_cases hrunning h).closes hnever hp

end Parser

end ShiftReduce
