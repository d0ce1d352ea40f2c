import ShiftReduce.Calculator.Builder
import ShiftReduce.Proofs.Parser.Reachable

/-!
# Parsing as the fold of a forest

A run without errors folds a forest from the bottom up: its leaves are the tokens taken, its inner
nodes the reductions made, and the frames above the lowest carry the values of its trees. This holds
for any table.
-/

namespace ShiftReduce

variable {σ τ π ν α : Type}

/-! ## Forests -/

inductive Tree (τ π ν : Type)
  | leaf (token : τ) (value : ν)
  | node (production : π) (children : List (Tree τ π ν))

abbrev Forest (τ π ν : Type) := List (Tree τ π ν)

mutual

/-- The tokens at the leaves with their values, from left to right. -/
def Tree.leaves : Tree τ π ν → List (τ × ν)
  | .leaf token value => [(token, value)]
  | .node _ children => Forest.leaves children

def Forest.leaves : Forest τ π ν → List (τ × ν)
  | [] => []
  | tree :: rest => tree.leaves ++ Forest.leaves rest

end

mutual

/-- The productions at the inner nodes, the children of a node before the node. -/
def Tree.productions : Tree τ π ν → List π
  | .leaf _ _ => []
  | .node production children => Forest.productions children ++ [production]

def Forest.productions : Forest τ π ν → List π
  | [] => []
  | tree :: rest => tree.productions ++ Forest.productions rest

end

mutual

/-- Every inner node has as many children as its production has symbols on the right. -/
def Tree.Proper (table : Table σ τ π) : Tree τ π ν → Prop
  | .leaf _ _ => True
  | .node production children =>
    children.length = table.arity production ∧ Forest.Proper table children

def Forest.Proper (table : Table σ τ π) : Forest τ π ν → Prop
  | [] => True
  | tree :: rest => tree.Proper table ∧ Forest.Proper table rest

end

mutual

/-- The value of a tree with `below` frames to its left. A leaf has that of its token. A node has
what its production makes of the values of its children, which are folded first. -/
def Tree.fold (sem : Semantics π ν α) (below : Nat) : Tree τ π ν → α → Except Breach (ν × α)
  | .leaf _ value, actions => pure (value, actions)
  | .node production children, actions => do
    let (values, actions) ← Forest.fold sem below children actions
    let result ← sem.reduce production
      ⟨children.length, below + children.length, values⟩ actions
    pure (result.value, result.actions)

/-- The values of the trees of a forest, folded from left to right. -/
def Forest.fold (sem : Semantics π ν α) (below : Nat) :
    Forest τ π ν → α → Except Breach (List ν × α)
  | [], actions => pure ([], actions)
  | tree :: rest, actions => do
    let (value, actions) ← tree.fold sem below actions
    let (values, actions) ← Forest.fold sem (below + 1) rest actions
    pure (value :: values, actions)

end

namespace Forest

variable {table : Table σ τ π} {sem : Semantics π ν α} {below : Nat} {actions actions' : α}
  {values : List ν}

theorem leaves_append (front back : Forest τ π ν) :
    leaves (front ++ back) = leaves front ++ leaves back := by
  induction front with
  | nil => rfl
  | cons tree front ih => rw [List.cons_append, leaves, leaves, ih, List.append_assoc]

theorem productions_append (front back : Forest τ π ν) :
    productions (front ++ back) = productions front ++ productions back := by
  induction front with
  | nil => rfl
  | cons tree front ih =>
    rw [List.cons_append, productions, productions, ih, List.append_assoc]

theorem proper_append {front back : Forest τ π ν} :
    Proper table (front ++ back) ↔ Proper table front ∧ Proper table back := by
  induction front with
  | nil => simp [Proper]
  | cons tree front ih => simp only [List.cons_append, Proper, ih, and_assoc]

theorem length_of_fold {forest : Forest τ π ν}
    (h : fold sem below forest actions = .ok (values, actions')) :
    values.length = forest.length := by
  induction forest generalizing below actions values with
  | nil =>
    cases h
    rfl
  | cons tree forest ih =>
    rw [fold, bind_eq_ok] at h
    obtain ⟨⟨value, actions₁⟩, -, h⟩ := h
    obtain ⟨⟨rest, actions₂⟩, hrest, h⟩ := bind_eq_ok.mp h
    cases h
    rw [List.length_cons, List.length_cons, ih hrest]

theorem fold_append {front back : Forest τ π ν} :
    fold sem below (front ++ back) actions = .ok (values, actions') ↔
      ∃ values₁ actions₁ values₂, values = values₁ ++ values₂ ∧
        fold sem below front actions = .ok (values₁, actions₁) ∧
        fold sem (below + front.length) back actions₁ = .ok (values₂, actions') := by
  induction front generalizing below actions values with
  | nil =>
    constructor
    · intro h
      exact ⟨[], actions, values, rfl, rfl, h⟩
    · rintro ⟨values₁, actions₁, values₂, rfl, h₁, h₂⟩
      cases h₁
      exact h₂
  | cons tree front ih =>
    have hbelow : below + 1 + front.length = below + (tree :: front).length := by
      rw [List.length_cons]
      omega
    rw [List.cons_append, fold]
    constructor
    · intro h
      obtain ⟨⟨value, actions₀⟩, htree, h⟩ := bind_eq_ok.mp h
      obtain ⟨⟨rest, actions₂⟩, hrest, h⟩ := bind_eq_ok.mp h
      cases h
      obtain ⟨values₁, actions₁, values₂, rfl, h₁, h₂⟩ := ih.mp hrest
      refine ⟨value :: values₁, actions₁, values₂, rfl, ?_, hbelow ▸ h₂⟩
      rw [fold, htree]
      simp only [bind, Except.bind, h₁]
      rfl
    · rintro ⟨values₁, actions₁, values₂, rfl, h₁, h₂⟩
      rw [fold] at h₁
      obtain ⟨⟨value, actions₀⟩, htree, h₁⟩ := bind_eq_ok.mp h₁
      obtain ⟨⟨rest, actions₂⟩, hrest, h₁⟩ := bind_eq_ok.mp h₁
      cases h₁
      have hboth := ih.mpr ⟨rest, actions₁, values₂, rfl, hrest, hbelow ▸ h₂⟩
      rw [htree]
      simp only [bind, Except.bind, hboth]
      rfl

theorem fold_node {front kids : Forest τ π ν} {production : π} {result : Reduced ν α}
    {values₁ values₂ : List ν} {actions₁ actions₂ : α}
    (hfront : fold sem below front actions = .ok (values₁, actions₁))
    (hkids : fold sem (below + front.length) kids actions₁ = .ok (values₂, actions₂))
    (hreduce : sem.reduce production
      ⟨kids.length, below + front.length + kids.length, values₂⟩ actions₂ = .ok result) :
    fold sem below (front ++ [.node production kids]) actions =
      .ok (values₁ ++ [result.value], result.actions) := by
  rw [fold_append]
  refine ⟨values₁, actions₁, [result.value], rfl, hfront, ?_⟩
  rw [fold, Tree.fold, hkids]
  simp only [bind, Except.bind, hreduce]
  rfl

theorem fold_leaf {front : Forest τ π ν} {token : τ} {value : ν}
    (h : fold sem below front actions = .ok (values, actions')) :
    fold sem below (front ++ [.leaf token value]) actions =
      .ok (values ++ [value], actions') := by
  rw [fold_append]
  exact ⟨values, actions', [value], rfl, h, rfl⟩

end Forest

/-! ## The forest of a run -/

def Event.production? : Event σ τ π ν → Option π
  | .reduce production => some production
  | _ => none

namespace Parser

/-- The productions reduced so far, the earliest first. -/
def reductions (p : Parser σ τ π ν α) : List π :=
  (p.journal.filterMap Event.production?).reverse

theorem reductions_reduced (p : Parser σ τ π ν α) (production : π) (result : Reduced ν α) (next : σ)
    (stack : Stack (Frame σ ν)) :
    (p.reduced production result next stack).reductions = p.reductions ++ [production] := by
  have hnotes : (result.notes.map (Event.note (σ := σ) (τ := τ) (π := π) (ν := ν))).reverse.filterMap
      Event.production? = [] := by
    rw [List.filterMap_eq_nil_iff]
    intro event hevent
    obtain ⟨note, -, rfl⟩ := List.mem_map.mp (List.mem_reverse.mp hevent)
    rfl
  rw [reductions, reduced, List.filterMap_cons_none rfl, List.filterMap_append, hnotes,
    List.nil_append, List.filterMap_cons_some (f := Event.production?) (b := production) rfl,
    List.reverse_cons]
  rfl

/-- What a run has done since `start` is to fold a forest, whose values stand above the lowest
frame. -/
structure Folds (table : Table σ τ π) (sem : Semantics π ν α) (start p : Parser σ τ π ν α)
    (frames : List (Frame σ ν)) (forest : Forest τ π ν) (values : List ν) : Prop where
  proper : Forest.Proper table forest
  frames_eq : frames.map Frame.value = sem.blank :: values
  fold_eq : Forest.fold sem 1 forest start.actions = .ok (values, p.actions)
  reductions_eq : p.reductions = start.reductions ++ Forest.productions forest
  counted : p.stats.shifts = (Forest.leaves forest).length ∧
    p.stats.reductions = (Forest.productions forest).length

def Grown (table : Table σ τ π) (sem : Semantics π ν α) (start : Parser σ τ π ν α)
    (leaves : List (τ × ν)) (frames : List (Frame σ ν)) (p : Parser σ τ π ν α) : Prop :=
  ∃ forest values, Folds table sem start p frames forest values ∧ Forest.leaves forest = leaves

variable {table : Table σ τ π} {sem : Semantics π ν α} {token : τ} {value : ν} {limit : Nat}
  {start p q : Parser σ τ π ν α} {l l' : Layout (Frame σ ν)} {leaves : List (τ × ν)}

theorem Folds.length_eq {frames : List (Frame σ ν)} {forest : Forest τ π ν} {values : List ν}
    (h : Folds table sem start p frames forest values) :
    frames.length = forest.length + 1 := by
  rw [← List.length_map Frame.value, h.frames_eq, List.length_cons, Forest.length_of_fold h.fold_eq]

theorem Reduces.arity_lt {production : π} {result : Reduced ν α} {next : σ}
    (h : Reduces table sem l p.actions production result next) :
    table.arity production < l.frames.length := by
  obtain ⟨under, hunder, -⟩ := h.goes
  have hne : (l.drop (table.arity production)).frames ≠ [] := by
    rintro hnil
    rw [hnil] at hunder
    cases hunder
  have hpos := List.length_pos_iff.mpr hne
  rw [Layout.frames_drop, List.length_take] at hpos
  omega

theorem Grown.reduce (h : Grown table sem start leaves l.frames p)
    (heffect : Effect table sem token value l p l' q none) :
    Grown table sem start leaves l'.frames q := by
  obtain ⟨forest, values, hfolds, hleaves⟩ := h
  cases heffect with
  | @reduce top production result next htop hentry hreduces hroom =>
    have hlength := hfolds.length_eq
    have harity := hreduces.arity_lt
    -- The frames that the reduction leaves, the lowest one apart, are those of the first trees.
    obtain ⟨k, hk⟩ : ∃ k, forest.length = k + table.arity production :=
      ⟨forest.length - table.arity production, by omega⟩
    have hkept : l.frames.length - table.arity production = k + 1 := by omega
    have hkids : (forest.drop k).length = table.arity production := by
      rw [List.length_drop]
      omega
    have hfront : (forest.take k).length = k := by
      rw [List.length_take]
      omega
    rw [← List.take_append_drop k forest, Forest.leaves_append] at hleaves
    have hfold := hfolds.fold_eq
    have hproper := hfolds.proper
    have hreductions := hfolds.reductions_eq
    obtain ⟨hshifts, hcount⟩ := hfolds.counted
    rw [← List.take_append_drop k forest] at hfold hproper hreductions hshifts hcount
    obtain ⟨values₁, actions₁, values₂, rfl, hfold₁, hfold₂⟩ := Forest.fold_append.mp hfold
    rw [Forest.proper_append] at hproper
    have hvalues₁ : values₁.length = k := by rw [Forest.length_of_fold hfold₁, hfront]
    have hargs : (l.frames.drop (l.frames.length - table.arity production)).map Frame.value =
        values₂ := by
      rw [List.map_drop, hfolds.frames_eq, hkept, List.drop_succ_cons, ← hvalues₁,
        List.drop_left]
    refine ⟨forest.take k ++ [.node production (forest.drop k)], values₁ ++ [result.value],
      ⟨?_, ?_, ?_, ?_, ?_, ?_⟩, ?_⟩
    · rw [Forest.proper_append]
      exact ⟨hproper.1, ⟨hkids, hproper.2⟩, trivial⟩
    · rw [Layout.frames_push, Layout.frames_drop, hkept, List.map_append, List.map_take,
        hfolds.frames_eq, List.take_succ_cons, ← hvalues₁, List.take_left]
      rfl
    · refine Forest.fold_node hfold₁ hfold₂ ?_
      have hdepth : 1 + k + table.arity production = l.frames.length := by omega
      rw [hkids, hfront, hdepth, ← hargs]
      exact hreduces.acts
    · rw [reductions_reduced, hreductions, Forest.productions_append, Forest.productions_append,
        List.append_assoc, List.append_assoc]
      simp [Forest.productions, Tree.productions]
    · change p.stats.shifts = _
      rw [hshifts, Forest.leaves_append, Forest.leaves_append]
      simp [Forest.leaves, Tree.leaves]
    · change p.stats.reductions + 1 = _
      rw [hcount, Forest.productions_append, Forest.productions_append]
      simp [Forest.productions, Tree.productions, Nat.add_assoc]
    · rw [Forest.leaves_append]
      simpa [Forest.leaves, Tree.leaves] using hleaves

theorem Grown.shift (h : Grown table sem start leaves l.frames p)
    (heffect : Effect table sem token value l p l' q (some .shifted)) :
    Grown table sem start (leaves ++ [(token, value)]) l'.frames q := by
  obtain ⟨forest, values, hfolds, rfl⟩ := h
  cases heffect with
  | @shift top next htop hentry hroom =>
    refine ⟨forest ++ [.leaf token value], values ++ [value], ⟨?_, ?_, ?_, ?_, ?_, ?_⟩, ?_⟩
    · rw [Forest.proper_append]
      exact ⟨hfolds.proper, trivial, trivial⟩
    · rw [Layout.frames_push, List.map_append, hfolds.frames_eq]
      rfl
    · exact Forest.fold_leaf hfolds.fold_eq
    · have hsame : (p.shifted token next (l.push ⟨next, value⟩).stack).reductions = p.reductions :=
        rfl
      rw [hsame, hfolds.reductions_eq, Forest.productions_append]
      simp [Forest.productions, Tree.productions]
    · change p.stats.shifts + 1 = _
      rw [hfolds.counted.1, Forest.leaves_append, List.length_append]
      rfl
    · change p.stats.reductions = _
      rw [hfolds.counted.2, Forest.productions_append, List.length_append]
      rfl
    · rw [Forest.leaves_append]
      rfl

theorem Grown.congr {frames : List (Frame σ ν)} (h : Grown table sem start leaves frames p)
    (hactions : q.actions = p.actions) (hreductions : q.reductions = p.reductions)
    (hstats : q.stats.shifts = p.stats.shifts ∧ q.stats.reductions = p.stats.reductions) :
    Grown table sem start leaves frames q := by
  obtain ⟨forest, values, hfolds, hleaves⟩ := h
  refine ⟨forest, values, ⟨hfolds.proper, hfolds.frames_eq, ?_, ?_, ?_⟩, hleaves⟩
  · rw [hactions, hfolds.fold_eq]
  · rw [hreductions, hfolds.reductions_eq]
  · rw [hstats.1, hstats.2]
    exact hfolds.counted

/-! ## Runs without errors -/

variable [DecidableEq τ]

theorem Grown.post (hgrown : Grown table sem start leaves p.frames p) (hp : p.Settled)
    (hrunning : p.isDone = false) (h : p.post table sem limit token value = .ok q)
    (hcount : q.stats.syntaxErrors = p.stats.syntaxErrors) (hlive : q.isErrored = false) :
    (q.isDone = false ∧ Grown table sem start (leaves ++ [(token, value)]) q.frames q) ∨
      ∃ v, q.status = .accepted v ∧ (q.frames.map Frame.value).getLast? = some v ∧
        Grown table sem start leaves q.frames q := by
  obtain ⟨p₁, fate, hoffer, hfate, rfl⟩ := post_of_no_error hp hrunning h hcount hlive
  obtain ⟨frames, free, hstack⟩ := hp
  have hopened := opened_stack hstack token
  rw [frames_eq hstack] at hgrown
  obtain ⟨l, p₂, l', ⟨hgrown₂, hstatus⟩, hp₁, heffect⟩ := offer_effect
    (I := fun l p' => Grown table sem start leaves l.frames p' ∧ p'.status = p.status)
    (fun l p' l' q' hI he => ⟨hI.1.reduce he, by cases he; exact hI.2⟩)
    hopened ⟨hgrown.congr rfl rfl ⟨rfl, rfl⟩, rfl⟩ hoffer
  have hcommit : p₁.commit.frames = l'.frames := by
    rw [frames_eq (commit_stack hp₁), Layout.frames_commit]
  rw [hcommit]
  rcases hfate with rfl | rfl
  · have hgrown₁ := hgrown₂.shift heffect
    refine .inl ⟨?_, hgrown₁.congr rfl rfl ⟨rfl, rfl⟩⟩
    cases heffect with
    | shift => exact (isDone_congr hstatus).trans hrunning
  · cases heffect with
    | @accept top htop hentry =>
      refine .inr ⟨top.value, rfl, ?_, hgrown₂.congr rfl rfl ⟨rfl, rfl⟩⟩
      rw [List.getLast?_map, htop]
      rfl

theorem isErrored_of_post (h : p.post table sem limit token value = .ok q)
    (hlive : q.isErrored = false) : p.isErrored = false := by
  cases hstatus : p.status with
  | running => rw [isErrored, hstatus]
  | accepted v => rw [isErrored, hstatus]
  | errored error =>
    have hdone : p.isDone = true := by rw [isDone, hstatus]
    rw [post_of_done hdone] at h
    cases h
    exact hlive

/-- The tokens that a run has taken: all of them while it runs, and those before the accepting one
once it has accepted with the value on top. -/
inductive Taken (table : Table σ τ π) (sem : Semantics π ν α) (limit : Nat)
    (start : Parser σ τ π ν α) : List (τ × ν) → Parser σ τ π ν α → List (τ × ν) → Prop
  | running {posts p₁} (hrunning : p₁.isDone = false) : Taken table sem limit start posts p₁ posts
  | accepted {before last after p₁ p₂ v}
      (hbefore : start.postAll table sem limit before = .ok p₁) (hrunning : p₁.isDone = false)
      (hlast : ∃ p₃, start.postAll table sem limit (before ++ [last]) = .ok p₃ ∧
        p₃.isAccepted = true)
      (hstatus : p₂.status = .accepted v)
      (htop : (p₂.frames.map Frame.value).getLast? = some v) :
      Taken table sem limit start (before ++ last :: after) p₂ before

theorem Fresh.postAll_grown {posts : List (τ × ν)} (hstart : Fresh table sem start)
    (hrun : start.postAll table sem limit posts = .ok p)
    (herrors : p.stats.syntaxErrors = 0) (hlive : p.isErrored = false) :
    ∃ leaves, Taken table sem limit start posts p leaves ∧
      Grown table sem start leaves p.frames p := by
  induction posts using List.reverseRecOn generalizing p with
  | nil =>
    cases hrun
    rcases hstart.cases with herrored | ⟨hstatus, hstats, free, hstack⟩
    · rw [hlive] at herrored
      cases herrored
    · refine ⟨[], .running ?_, [], [],
        ⟨trivial, ?_, rfl, (List.append_nil _).symm, ?_⟩, rfl⟩
      · unfold isDone
        rw [hstatus]
      · rw [frames_eq hstack]
        rfl
      · rw [hstats]
        exact ⟨rfl, rfl⟩
  | append_singleton posts post ih =>
    obtain ⟨token, value⟩ := post
    have hpost := hrun
    rw [postAll_concat, bind_eq_ok] at hpost
    obtain ⟨p₁, hrun₁, hpost⟩ := hpost
    have hsettled : p₁.Settled := hstart.settled.postAll hrun₁
    -- What has gone well in the end has gone well before.
    have hcount := post_syntaxErrors_le hsettled hpost
    have herrors₁ : p₁.stats.syntaxErrors = 0 := by omega
    have hlive₁ : p₁.isErrored = false := isErrored_of_post hpost hlive
    obtain ⟨leaves, htaken, hgrown⟩ := ih hrun₁ herrors₁ hlive₁
    cases htaken with
    | running hrunning =>
      rcases hgrown.post hsettled hrunning hpost (by omega) hlive with
        ⟨hrunning', hgrown'⟩ | ⟨v, hstatus, htop, hgrown'⟩
      · exact ⟨posts ++ [(token, value)], .running hrunning', hgrown'⟩
      · refine ⟨posts, .accepted hrun₁ hrunning ⟨p, hrun, ?_⟩ hstatus htop, hgrown'⟩
        unfold isAccepted
        rw [hstatus]
    | @accepted before last after p₀ _ v hbefore hrunning hlast hstatus htop =>
      have hdone : p₁.isDone = true := by rw [isDone, hstatus]
      rw [post_of_done hdone] at hpost
      cases hpost
      rw [List.append_assoc]
      exact ⟨leaves, .accepted hbefore hrunning hlast hstatus htop, hgrown.congr rfl rfl ⟨rfl, rfl⟩⟩

/-- Whatever the table, a run without errors has folded a forest from the bottom up. Its leaves are
the tokens taken and its inner nodes the reductions made, children before their node; the frames
above the lowest carry the values of its trees. -/
theorem postAll_folds_forest {posts : List (τ × ν)} (hstart : Fresh table sem start)
    (hrun : start.postAll table sem limit posts = .ok p)
    (herrors : p.stats.syntaxErrors = 0) (hlive : p.isErrored = false) :
    ∃ (forest : Forest τ π ν) (values : List ν),
      p.depth = forest.length + 1 ∧
      Taken table sem limit start posts p (Forest.leaves forest) ∧
      Folds table sem start p p.frames forest values := by
  obtain ⟨leaves, htaken, forest, values, hfolds, rfl⟩ :=
    hstart.postAll_grown hrun herrors hlive
  obtain ⟨frames, free, hstack⟩ := hstart.settled.postAll hrun
  refine ⟨forest, values, ?_, htaken, hfolds⟩
  unfold depth
  rw [hstack, Layout.size_stack, ← frames_eq hstack, hfolds.length_eq]

section

open Calculator

/-- `1 + 2 * 3`, with the end of the input. -/
def sumOfProduct : List (Token × Node) :=
  [(.number, .number 1), (.add, .none), (.number, .number 2), (.mul, .none), (.number, .number 3),
    (.finish, .none)]

theorem postAll_folds_forest_sumOfProduct :
    ∃ p, (create grammar.toTable Builder.semantics {} 8).postAll grammar.toTable Builder.semantics 4
        sumOfProduct = .ok p ∧
      p.stats.syntaxErrors = 0 ∧ p.isErrored = false ∧
      ∃ (forest : Forest Token Production Node) (values : List Node),
        p.depth = forest.length + 1 ∧
        Taken grammar.toTable Builder.semantics 4 (create grammar.toTable Builder.semantics {} 8)
          sumOfProduct p (Forest.leaves forest) ∧
        Folds grammar.toTable Builder.semantics (create grammar.toTable Builder.semantics {} 8) p
          p.frames forest values := by
  have hruns : (do
      let p ← (create grammar.toTable Builder.semantics {} 8).postAll grammar.toTable
        Builder.semantics 4 sumOfProduct
      pure (p.stats.syntaxErrors, p.isErrored)).toOption = some (0, false) := by
    decide +kernel
  obtain ⟨p, hp, hruns⟩ := toOption_bind_eq_some.mp hruns
  obtain ⟨herrors, hlive⟩ := Prod.mk.inj (Option.some.inj hruns)
  exact ⟨p, hp, herrors, hlive, postAll_folds_forest (.create _ 8) hp herrors hlive⟩

end

end Parser

end ShiftReduce
