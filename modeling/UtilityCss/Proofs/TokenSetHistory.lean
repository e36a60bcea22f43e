/-
Histories of a token set.

A set is changed by one step after the other: tokens are added and taken out, and other sets are
united with it, subtracted from it and so on.  Whatever the steps are, an item that stays keeps
its place among the others, and new items come last.

* `TokenSet.Step`, `TokenSet.perform` — the steps, and what each replies and leaves;
* `TokenSet.performSingly` — the same by single insertions and removals;
* `TokenSet.Step.result` — the members after a step, as a set;
* `TokenSet.Record.IsLawful` — what is said of one step of a history;
* `TokenSet.isLawful_perform` — it holds of every step on every set;
* `TokenSet.replies_pop` — as many pops as there are items give the items in their order;
* `TokenSet.history_lawful` — so it holds of every step of every history.
-/
import Mathlib.Data.Set.Insert
import Mathlib.Order.BooleanAlgebra.Set
import UtilityCss.Check.Basic
import UtilityCss.Proofs.DocumentOrder
import UtilityCss.Proofs.TokenSetOrder

namespace UtilityCss

namespace TokenSet

/-! ### Steps -/

/-- What an operation on two sets has beside the set itself. -/
inductive Operand where
  /-- The tokens of a list. -/
  | list (tokens : List Text)
  /-- The set itself. -/
  | itself

/-- The set that an operand stands for. -/
def Operand.set (s : TokenSet) : Operand → TokenSet
  | list tokens => ofList tokens
  | itself => s

/-- The tokens of an operand in the order in which it lists them. -/
def Operand.listed (s : TokenSet) : Operand → List Text
  | list tokens => tokens
  | itself => s.items

/-- Questions about a set, and operations that make another one. -/
inductive Question where
  | contains (t : Text)
  | size
  | display
  | union (o : Operand)
  | inter (o : Operand)
  | diff (o : Operand)
  | diffFrom (o : Operand)
  | symmDiff (o : Operand)
  | subset (o : Operand)
  | properSubset (o : Operand)
  | superset (o : Operand)
  | properSuperset (o : Operand)
  | sameMembers (o : Operand)
  | disjoint (o : Operand)
  | sheet
  | findings

/-- One step on a set. -/
inductive Step where
  | add (t : Text)
  /-- Takes a token out if it is there. -/
  | discard (t : Text)
  /-- Takes a token out, which must be there. -/
  | remove (t : Text)
  | pop
  | clear
  | unite (o : Operand)
  | intersect (o : Operand)
  | subtract (o : Operand)
  | toggle (o : Operand)
  /-- Adds the tokens of a page tree. -/
  | extract (tree : Json)
  | ask (q : Question)

/-- What a step replies. -/
inductive Answer where
  | done
  | token (t : Text)
  | flag (b : Bool)
  | count (n : Nat)
  | text (s : Text)
  | set (s : TokenSet)
  | findings (ds : List Diagnostic)

/-- Why a step fails. -/
inductive Failure where
  /-- The token to be removed is not there. -/
  | absent (t : Text)
  /-- There is no item to pop. -/
  | noItem

/-- The answer to a question. -/
def answer (s : TokenSet) : Question → Answer
  | .contains t => .flag (t ∈ s)
  | .size => .count s.size
  | .display => .text s.display
  | .union o => .set (s.union (o.set s))
  | .inter o => .set (s.inter (o.set s))
  | .diff o => .set (s.diff (o.set s))
  | .diffFrom o => .set ((o.set s).diff s)
  | .symmDiff o => .set (s.symmDiff (o.set s))
  | .subset o => .flag (s.subset (o.set s))
  | .properSubset o => .flag (s.properSubset (o.set s))
  | .superset o => .flag ((o.set s).subset s)
  | .properSuperset o => .flag ((o.set s).properSubset s)
  | .sameMembers o => .flag (s.sameMembers (o.set s))
  | .disjoint o => .flag (s.disjoint (o.set s))
  | .sheet => .text (compile s.items)
  | .findings => .findings (check s.items [])

/-- What a step replies, and the set after it. -/
def perform (s : TokenSet) : Step → Except Failure Answer × TokenSet
  | .add t => (.ok .done, s.insert t)
  | .discard t => (.ok .done, s.erase t)
  | .remove t => if t ∈ s then (.ok .done, s.erase t) else (.error (.absent t), s)
  | .pop =>
    match s.pop? with
    | some (t, rest) => (.ok (.token t), rest)
    | none => (.error .noItem, s)
  | .clear => (.ok .done, empty)
  | .unite o => (.ok .done, s.union (o.set s))
  | .intersect o => (.ok .done, s.retain (o.set s))
  | .subtract o => (.ok .done, s.diff (o.set s))
  | .toggle o => (.ok .done, s.toggle (o.set s))
  | .extract tree => (.ok .done, s.union (Tree.extract tree).tokens)
  | .ask q => (.ok (s.answer q), s)

/-- A step by single insertions and removals: the items of the operand one after the other, or,
where the operand is the set itself, all its items until there is none. -/
def performSingly (s : TokenSet) : Step → Except Failure Answer × TokenSet
  | .add t => (.ok .done, s.insert t)
  | .discard t => (.ok .done, s.erase t)
  | .remove t => if t ∈ s then (.ok .done, s.erase t) else (.error (.absent t), s)
  | .pop =>
    match s.items.head? with
    | some t => (.ok (.token t), s.erase t)
    | none => (.error .noItem, s)
  | .clear => (.ok .done, s.drain)
  | .unite o => (.ok .done, (o.listed s).foldl insert s)
  | .intersect o => (.ok .done, (s.diff (o.set s)).items.foldl erase s)
  | .subtract (.list tokens) => (.ok .done, tokens.foldl erase s)
  | .subtract .itself => (.ok .done, s.drain)
  | .toggle (.list tokens) =>
    (.ok .done, (ofList tokens).items.foldl
      (fun s t => if t ∈ s then s.erase t else s.insert t) s)
  | .toggle .itself => (.ok .done, s.drain)
  | .extract tree => (.ok .done, (Tree.extract tree).tokens.items.foldl insert s)
  | .ask q => (.ok (s.answer q), s)

theorem perform_eq_performSingly (s : TokenSet) (step : Step) :
    s.perform step = s.performSingly step := by
  cases step with
  | pop =>
    cases hpop : s.pop? with
    | none => simp only [perform, performSingly, hpop, pop?_eq_none_iff.mp hpop, List.head?_nil]
    | some p =>
      obtain ⟨t, rest⟩ := p
      simp only [perform, performSingly, hpop, pop?_eq_some_iff.mp hpop, List.head?_cons,
        erase_of_pop? hpop]
  | clear => rw [perform, performSingly, drain_eq_empty]
  | unite o =>
    cases o with
    | list tokens =>
      show (_, s.insertAll (ofList tokens).items) = (_, s.insertAll tokens)
      rw [items_ofList, insertAll_eraseDups]
    | itself => rfl
  | intersect o =>
    show (_, s.retain (o.set s)) = (_, s.eraseAll (s.diff (o.set s)).items)
    rw [retain_eq_eraseAll]
  | subtract o =>
    cases o with
    | list tokens =>
      show (_, s.diff (ofList tokens)) = (_, s.eraseAll tokens)
      rw [diff_eq_eraseAll]
    | itself =>
      show (_, s.diff s) = (_, s.drain)
      rw [diff_self, drain_eq_empty]
  | toggle o =>
    cases o with
    | list tokens => rfl
    | itself =>
      show (_, s.toggle s) = (_, s.drain)
      rw [toggle_self, drain_eq_empty]
  | _ => rfl

/-! ### The members after a step -/

/-- The members of a set. -/
def members (s : TokenSet) : Set Text :=
  {t | t ∈ s}

/-- The tokens of a list. -/
def tokensOf (tokens : List Text) : Set Text :=
  {t | t ∈ tokens}

/-- The members of the set after a step, in the language of sets. -/
def Step.result (s : TokenSet) : Step → Set Text
  | add t => s.members ∪ {t}
  | discard t => s.members \ {t}
  | remove t => s.members \ {t}
  | pop => s.members \ {t | s.items.head? = some t}
  | clear => ∅
  | unite o => s.members ∪ tokensOf (o.listed s)
  | intersect o => s.members ∩ tokensOf (o.listed s)
  | subtract o => s.members \ tokensOf (o.listed s)
  | toggle o => (s.members \ tokensOf (o.listed s)) ∪ (tokensOf (o.listed s) \ s.members)
  | extract tree => s.members ∪ tokensOf (Tree.tokens tree)
  | ask _ => s.members

/-- The tokens that a step lists. -/
def Step.listed (s : TokenSet) : Step → List Text
  | add t => [t]
  | discard t => [t]
  | remove t => [t]
  | unite o => o.listed s
  | intersect o => o.listed s
  | subtract o => o.listed s
  | toggle o => o.listed s
  | extract tree => Tree.tokens tree
  | _ => []

/-- A step of a history. -/
structure Record where
  before : TokenSet
  step : Step
  reply : Except Failure Answer
  after : TokenSet

/-- What is said of a step: no item is there twice, the members are those of the result, the items
that stay keep their order and the new ones come after them in the order of the operand; a
question and a step that fails change nothing, and the first item is the one that is popped. -/
structure Record.IsLawful (r : Record) : Prop where
  nodup : r.after.items.Nodup
  members : r.after.members = r.step.result r.before
  order : r.after.items = r.before.items.filter (· ∈ r.after) ++
    ((r.step.listed r.before).filter fun t => t ∉ r.before ∧ t ∈ r.after).eraseDups
  asked : ∀ q, r.step = .ask q → r.after = r.before
  fails_iff : (∃ f, r.reply = .error f) ↔
    (∃ t, r.step = .remove t ∧ t ∉ r.before) ∨ (r.step = .pop ∧ r.before.items = [])
  failed : (∃ f, r.reply = .error f) → r.after = r.before
  popped : ∀ t rest, r.step = .pop → r.before.items = t :: rest →
    r.reply = .ok (.token t) ∧ r.after.items = rest

/-- The steps of a history, with the set before and after each of them. -/
def history (s : TokenSet) : List Step → List Record
  | [] => []
  | step :: steps =>
    ⟨s, step, (s.perform step).1, (s.perform step).2⟩ :: history (s.perform step).2 steps

/-- The set at the end of a history. -/
def last (s : TokenSet) (steps : List Step) : TokenSet :=
  steps.foldl (fun s step => (s.perform step).2) s

/-! ### One step -/

/-- The items of `next` are some of those of `s`, then some new ones in the order of a list. -/
structure Arranges (s next : TokenSet) (listed : List Text) (keep add : Text → Bool) : Prop where
  items : next.items =
    s.items.filter keep ++ (listed.filter fun t => decide (t ∉ s) && add t).eraseDups

theorem Arranges.mem_iff {s next : TokenSet} {listed : List Text} {keep add : Text → Bool}
    (h : Arranges s next listed keep add) {t : Text} :
    t ∈ next ↔ (t ∈ s ∧ keep t = true) ∨ (t ∈ listed ∧ t ∉ s ∧ add t = true) := by
  rw [mem_def, h.items, List.mem_append, List.mem_filter, List.mem_eraseDups, List.mem_filter,
    Bool.and_eq_true, decide_eq_true_eq, ← mem_def]

/-- The new items are told by their being new. -/
theorem Arranges.order {s next : TokenSet} {listed : List Text} {keep add : Text → Bool}
    (h : Arranges s next listed keep add) :
    next.items = s.items.filter (· ∈ next) ++
      (listed.filter fun t => t ∉ s ∧ t ∈ next).eraseDups := by
  have hkept : s.items.filter (· ∈ next) = s.items.filter keep := by
    refine List.filter_congr fun t ht => ?_
    rw [Bool.eq_iff_iff, decide_eq_true_eq, h.mem_iff]
    simp [mem_def.mpr ht]
  have hadded : listed.filter (fun t => t ∉ s ∧ t ∈ next) =
      listed.filter fun t => decide (t ∉ s) && add t := by
    refine List.filter_congr fun t ht => ?_
    rw [Bool.eq_iff_iff, Bool.and_eq_true, decide_eq_true_eq, decide_eq_true_eq, h.mem_iff]
    by_cases hs : t ∈ s <;> simp [hs, ht]
  rw [hkept, hadded, h.items]

/-- Nothing but removals. -/
theorem Arranges.of_filter {s next : TokenSet} {keep : Text → Bool} (listed : List Text)
    (h : next.items = s.items.filter keep) : Arranges s next listed keep fun _ => false :=
  ⟨by simp [h]⟩

theorem Arranges.refl (s : TokenSet) (listed : List Text) :
    Arranges s s listed (fun _ => true) fun _ => false :=
  .of_filter listed (List.filter_eq_self.mpr fun _ _ => rfl).symm

theorem arranges_insertAll (s : TokenSet) (tokens : List Text) :
    Arranges s (s.insertAll tokens) tokens (fun _ => true) fun _ => true :=
  ⟨by simp [items_insertAll]⟩

/-- The set of an operand has its tokens, each where it is first listed. -/
theorem Operand.items_set (s : TokenSet) (o : Operand) :
    (o.set s).items = (o.listed s).eraseDups := by
  cases o with
  | list tokens => exact items_ofList tokens
  | itself => exact (eraseDups_of_nodup s.nodup).symm

theorem Operand.mem_set {s : TokenSet} {o : Operand} {t : Text} : t ∈ o.set s ↔ t ∈ o.listed s := by
  rw [mem_def, items_set, List.mem_eraseDups]

theorem union_operand (s : TokenSet) (o : Operand) :
    s.union (o.set s) = s.insertAll (o.listed s) := by
  rw [union, Operand.items_set, insertAll_eraseDups]

theorem arranges_toggle (s : TokenSet) (o : Operand) :
    Arranges s (s.toggle (o.set s)) (o.listed s) (· ∉ o.set s) fun _ => true := by
  refine ⟨?_⟩
  rw [items_toggle, Operand.items_set, ← eraseDups_filter]
  simp only [Bool.and_true]

theorem union_extract (s : TokenSet) (tree : Json) :
    s.union (Tree.extract tree).tokens = s.insertAll (Tree.tokens tree) := by
  rw [union, Tree.items_extract, insertAll_eraseDups]

/-- Every step keeps some items and adds others, and its members are those of the result. -/
theorem exists_arranges (s : TokenSet) (step : Step) :
    ∃ keep add, Arranges s (s.perform step).2 (step.listed s) keep add ∧
      (s.perform step).2.members = step.result s := by
  cases step with
  | add t =>
    have h := arranges_insertAll s [t]
    refine ⟨_, _, h, Set.ext fun u => ?_⟩
    exact mem_insert
  | discard t =>
    have h := Arranges.of_filter [t] (items_erase s t)
    exact ⟨_, _, h, Set.ext fun u => mem_erase⟩
  | remove t =>
    by_cases ht : t ∈ s
    · rw [perform, if_pos ht]
      exact ⟨_, _, .of_filter [t] (items_erase s t), Set.ext fun u => mem_erase⟩
    · -- nothing is taken out of a set that has not the token
      rw [perform, if_neg ht]
      exact ⟨_, _, .refl s [t], (Set.sdiff_singleton_eq_self ht).symm⟩
  | pop =>
    cases hpop : s.pop? with
    | none =>
      have hnone : s.items = [] := pop?_eq_none_iff.mp hpop
      simp only [perform, hpop]
      refine ⟨_, _, .refl s [], ?_⟩
      simp [Step.result, hnone, Set.sdiff_empty]
    | some p =>
      obtain ⟨t, rest⟩ := p
      have hhead : s.items.head? = some t := by rw [pop?_eq_some_iff.mp hpop, List.head?_cons]
      simp only [perform, hpop, ← erase_of_pop? hpop]
      refine ⟨_, _, .of_filter [] (items_erase s t), Set.ext fun u => ?_⟩
      simp [Step.result, members, mem_erase, hhead, eq_comm]
  | clear =>
    have h : empty.items = s.items.filter fun _ => false := (List.filter_false _).symm
    exact ⟨_, _, .of_filter [] h, Set.ext fun u => List.mem_nil_iff u⟩
  | unite o =>
    have h := arranges_insertAll s (o.listed s)
    rw [perform, union_operand]
    exact ⟨_, _, h, Set.ext fun u => mem_insertAll⟩
  | intersect o =>
    refine ⟨_, _, .of_filter (o.listed s) rfl, Set.ext fun u => mem_filter.trans ?_⟩
    simp [Operand.mem_set, Step.result, members, tokensOf]
  | subtract o =>
    refine ⟨_, _, .of_filter (o.listed s) rfl, Set.ext fun u => mem_filter.trans ?_⟩
    simp [Operand.mem_set, Step.result, members, tokensOf]
  | toggle o =>
    have h := arranges_toggle s o
    refine ⟨_, _, h, Set.ext fun u => h.mem_iff.trans ?_⟩
    simp [Operand.mem_set, Step.result, members, tokensOf]
  | extract tree =>
    have h := arranges_insertAll s (Tree.tokens tree)
    rw [perform, union_extract]
    exact ⟨_, _, h, Set.ext fun u => mem_insertAll⟩
  | ask q => exact ⟨_, _, .refl s [], rfl⟩

/-- A step fails on a token that is not there, and on a set without items. -/
theorem perform_fails_iff (s : TokenSet) (step : Step) :
    (∃ f, (s.perform step).1 = .error f) ↔
      (∃ t, step = .remove t ∧ t ∉ s) ∨ (step = .pop ∧ s.items = []) := by
  cases step with
  | remove t => by_cases ht : t ∈ s <;> simp [perform, ht]
  | pop =>
    rw [← pop?_eq_none_iff]
    cases hpop : s.pop? <;> simp [perform, hpop]
  | _ => simp [perform]

theorem perform_of_fails {s : TokenSet} {step : Step} (h : ∃ f, (s.perform step).1 = .error f) :
    (s.perform step).2 = s := by
  rcases (perform_fails_iff s step).mp h with ⟨t, rfl, ht⟩ | ⟨rfl, hnone⟩
  · rw [perform, if_neg ht]
  · simp only [perform, pop?_eq_none_iff.mpr hnone]

theorem perform_pop {s rest : TokenSet} {t : Text} (h : s.items = t :: rest.items) :
    s.perform .pop = (.ok (.token t), rest) := by
  simp only [perform, pop?_eq_some_iff.mpr h]

theorem isLawful_perform (s : TokenSet) (step : Step) :
    Record.IsLawful ⟨s, step, (s.perform step).1, (s.perform step).2⟩ := by
  obtain ⟨keep, add, harranges, hmembers⟩ := exists_arranges s step
  exact {
    nodup := (s.perform step).2.nodup
    members := hmembers
    order := harranges.order
    asked := by rintro q ⟨⟩; rfl
    fails_iff := perform_fails_iff s step
    failed := perform_of_fails
    popped := by
      rintro t rest ⟨⟩ (hitems : s.items = t :: rest)
      have hrest : rest.Nodup := (List.nodup_cons.mp (hitems ▸ s.nodup)).2
      have hpop : s.perform .pop = (.ok (.token t), ⟨rest, hrest⟩) := perform_pop hitems
      exact ⟨congrArg Prod.fst hpop, congrArg (items ∘ Prod.snd) hpop⟩ }

/-! ### Histories -/

theorem isLawful_of_mem_history {s : TokenSet} {steps : List Step} {r : Record}
    (h : r ∈ history s steps) : r.IsLawful := by
  induction steps generalizing s with
  | nil => exact absurd h List.not_mem_nil
  | cons step steps ih =>
    rcases List.mem_cons.mp h with rfl | h
    · exact isLawful_perform s step
    · exact ih h

/-- Popping until there is no item replies the items in their order. -/
theorem replies_pop (s : TokenSet) :
    (history s (List.replicate s.size .pop)).map (·.reply) = s.items.map (.ok ∘ .token) ∧
      last s (List.replicate s.size .pop) = empty := by
  obtain ⟨items, hnodup⟩ := s
  induction items with
  | nil => exact ⟨rfl, rfl⟩
  | cons t rest ih =>
    have hrest : rest.Nodup := (List.nodup_cons.mp hnodup).2
    have hpop : perform ⟨t :: rest, hnodup⟩ .pop = (.ok (.token t), ⟨rest, hrest⟩) :=
      perform_pop rfl
    obtain ⟨hreplies, hlast⟩ := ih hrest
    constructor
    · show (perform _ _).1 :: (history (perform _ _).2 (List.replicate rest.length .pop)).map _ = _
      rw [hpop]
      exact congrArg _ hreplies
    · show last (perform _ _).2 (List.replicate rest.length .pop) = _
      rw [hpop]
      exact hlast

/-- In every history of a set that begins with the tokens of a list, every step is lawful; the
steps are runs of single insertions and removals. -/
theorem history_lawful :
    (∀ (tokens : List Text) (steps : List Step), ∀ r ∈ history (ofList tokens) steps,
      r.IsLawful) ∧
    (∀ tokens : List Text, (ofList tokens).items = tokens.eraseDups) ∧
    (∀ (s : TokenSet) (step : Step), s.perform step = s.performSingly step) ∧
    (∀ s : TokenSet,
      (history s (List.replicate s.size .pop)).map (·.reply) = s.items.map (.ok ∘ .token) ∧
        last s (List.replicate s.size .pop) = empty) :=
  ⟨fun _ _ _ h => isLawful_of_mem_history h, items_ofList, perform_eq_performSingly, replies_pop⟩

theorem history_lawful_toggle : ∃ r ∈ history (ofList ["p-4", "m-2", "p-4"])
    [.toggle (.list ["m-2", "flex"]), .remove "m-2"],
    r.IsLawful ∧ r.before.items = ["p-4", "m-2"] ∧ r.after.items = ["p-4", "flex"] :=
  ⟨_, List.mem_cons_self,
    history_lawful.1 ["p-4", "m-2", "p-4"] [.toggle (.list ["m-2", "flex"]), .remove "m-2"] _
      List.mem_cons_self,
    by decide, by decide⟩

end TokenSet

end UtilityCss
