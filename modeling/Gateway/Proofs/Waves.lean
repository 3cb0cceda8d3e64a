import Mathlib.Data.Set.Finite.List
import Mathlib.Logic.Relation
import Gateway.Proofs.Schedule
import Gateway.Sample

/-!
# Waves of a batch

Operations fall into waves round by round: those that are ready make the next wave, and when none is
ready, all that are left make the last one (`Layers`, with a case for each end of a round). Nothing
is left over in the end and nothing doubled, and no wave is empty, so there are at most as many
rounds as operations. What an operation needs of the others stands in an earlier wave, unless it is
in a last wave that is tied up in itself: every operation there needs one of the same wave
(`Knotted`). In a finite list this is a cycle, and operations on a cycle never become ready, so
there is such a last wave exactly when some operations need each other in a circle (`Circular`).
Main statement: `splitWaves_exact`.
-/

namespace Gateway

open Relation

variable {needs : Reference → List Reference} {batch placed : List Reference}
  {ops wave : List PlannedOp} {waves : List (List PlannedOp)} {op o : PlannedOp}

/-! ### Knots and cycles -/

/-- Every operation of a wave needs one of the same wave. -/
def Knotted (needs : Reference → List Reference) (wave : List PlannedOp) : Prop :=
  ∀ op ∈ wave, ∃ o ∈ wave, o.key ∈ needs op.key

/-- Of some operations one needs another. -/
def NeedsAmong (needs : Reference → List Reference) (ops : List PlannedOp)
    (op o : PlannedOp) : Prop :=
  op ∈ ops ∧ o ∈ ops ∧ o.key ∈ needs op.key

/-- Some operations need each other in a circle. -/
def Circular (needs : Reference → List Reference) (ops : List PlannedOp) : Prop :=
  ∃ op, TransGen (NeedsAmong needs ops) op op

/-- In a finite list from which nothing leads out there is a cycle. -/
theorem exists_cycle {α : Type} {r : α → α → Prop} {l : List α} (hne : l ≠ [])
    (h : ∀ a ∈ l, ∃ b ∈ l, r a b) : ∃ a, TransGen r a a := by
  by_contra hno
  let follows : {a // a ∈ l} → {a // a ∈ l} → Prop := fun b a => r a b
  have irreflexive : Std.Irrefl (TransGen follows) := by
    refine ⟨fun a ha => hno ⟨a, ?_⟩⟩
    exact transGen_swap.1 (TransGen.lift Subtype.val (fun _ _ hab => hab) a a ha)
  have finite : Finite {a // a ∈ l} := List.finite_toSet l
  have wellFounded : WellFounded (TransGen follows) := Finite.wellFounded_of_trans_of_irrefl _
  obtain ⟨a, ha⟩ := List.exists_mem_of_ne_nil l hne
  obtain ⟨⟨least, hleast⟩, -, hmin⟩ := wellFounded.has_min Set.univ ⟨⟨a, ha⟩, trivial⟩
  obtain ⟨b, hb, hr⟩ := h least hleast
  exact hmin ⟨b, hb⟩ trivial (.single hr)

/-- A knotted wave holds a cycle. -/
theorem circular_of_knotted (hne : wave ≠ []) (h : Knotted needs wave)
    (hsub : ∀ op ∈ wave, op ∈ ops) : Circular needs ops := by
  refine exists_cycle hne fun op hop => ?_
  obtain ⟨o, ho, hneeds⟩ := h op hop
  exact ⟨o, ho, hsub op hop, hsub o ho, hneeds⟩

/-! ### Rounds -/

/-- What the rounds make of the operations of a batch, given what was placed before. -/
inductive Layers (needs : Reference → List Reference) (batch : List Reference) :
    List Reference → List (List PlannedOp) → Prop
  /-- Everything is placed. -/
  | done (placed : List Reference) : Layers needs batch placed []
  /-- None of the rest is ready. -/
  | stuck {placed : List Reference} {wave : List PlannedOp} (hne : wave ≠ [])
    (hknot : Knotted needs wave) : Layers needs batch placed [wave]
  /-- What is ready makes a wave. -/
  | round {placed : List Reference} {wave : List PlannedOp} {rest : List (List PlannedOp)}
    (hne : wave ≠ []) (hready : ∀ op ∈ wave, ∀ n ∈ needs op.key, n ∈ batch → n ∈ placed)
    (hrest : Layers needs batch (placed ++ wave.map (·.key)) rest) :
    Layers needs batch placed (wave :: rest)

/-- An operation is ready once all that it needs of its batch is placed; other needs do not hold it.
-/
theorem isReady_iff :
    isReady needs batch placed op = true ↔ ∀ n ∈ needs op.key, n ∈ batch → n ∈ placed := by
  simp [isReady, or_iff_not_imp_left]

/-- Waves come about in rounds, as long as all that is not placed is still to be. -/
theorem layers_splitWaves (h : ∀ n ∈ batch, n ∈ placed ∨ n ∈ ops.map (·.key)) :
    Layers needs batch placed (splitWaves needs batch placed ops) := by
  fun_induction splitWaves needs batch placed ops with
  | case1 placed ops hempty => exact .done placed
  | case2 placed ops hempty hnone =>
    refine .stuck (by simpa using hempty) fun op hop => ?_
    have hblocked : ¬isReady needs batch placed op = true := by
      have hready : op ∉ readyOps needs batch placed ops := by
        rw [List.isEmpty_iff.1 hnone]
        exact List.not_mem_nil
      exact fun hop' => hready (List.mem_filter.2 ⟨hop, hop'⟩)
    rw [isReady_iff] at hblocked
    push Not at hblocked
    obtain ⟨n, hn, hbatch, hplaced⟩ := hblocked
    obtain ⟨o, ho, rfl⟩ := List.mem_map.1 ((h n hbatch).resolve_left hplaced)
    exact ⟨o, ho, hn⟩
  | case3 placed ops hempty hsome ready ih =>
    refine .round (by simpa using hsome) (fun op hop => ?_) (ih fun n hn => ?_)
    · exact isReady_iff.1 (List.mem_filter.1 hop).2
    · rw [List.mem_append]
      rcases h n hn with hplaced | hleft
      · exact .inl (.inl hplaced)
      · obtain ⟨op, hop, rfl⟩ := List.mem_map.1 hleft
        by_cases hready : isReady needs batch placed op = true
        · exact .inl (.inr (List.mem_map_of_mem (List.mem_filter.2 ⟨hop, hready⟩)))
        · exact .inr (List.mem_map_of_mem (List.mem_filter.2 ⟨hop, by simpa using hready⟩))

/-- No wave is empty. -/
theorem Layers.ne_nil (h : Layers needs batch placed waves) : ∀ wave ∈ waves, wave ≠ [] := by
  induction h with
  | done => exact fun _ h => absurd h List.not_mem_nil
  | stuck hne => simpa using hne
  | round hne _ _ ih => exact List.forall_mem_cons.2 ⟨hne, ih⟩

/-- There are at most as many waves as operations in them. -/
theorem length_le_length_flatten (h : ∀ wave ∈ waves, wave ≠ []) :
    waves.length ≤ waves.flatten.length := by
  have hone : ∀ n ∈ waves.map List.length, 1 ≤ n := by
    intro n hn
    obtain ⟨wave, hwave, rfl⟩ := List.mem_map.1 hn
    exact List.length_pos_of_ne_nil (h wave hwave)
  have hsum := List.length_le_sum_of_one_le _ hone
  rwa [List.length_map, ← List.length_flatten] at hsum

/-- What an operation needs of the batch was placed in the rounds before, unless it is in a last
wave that is knotted. -/
theorem Layers.earlier_or_knotted (h : Layers needs batch placed waves)
    {past rest : List (List PlannedOp)} (hsplit : waves = past ++ wave :: rest) :
    (∀ op ∈ wave, ∀ n ∈ needs op.key, n ∈ batch → n ∈ placed ∨ n ∈ past.flatten.map (·.key)) ∨
      rest = [] ∧ Knotted needs wave := by
  induction h generalizing past with
  | done => simp at hsplit
  | stuck hne hknot =>
    rcases past with _ | ⟨first, past⟩
    · obtain ⟨rfl, rfl⟩ := List.cons.inj hsplit
      exact .inr ⟨rfl, hknot⟩
    · simp at hsplit
  | round hne hready hrest ih =>
    rcases past with _ | ⟨first, past⟩
    · obtain ⟨rfl, rfl⟩ := List.cons.inj hsplit
      exact .inl fun op hop n hn hbatch => .inl (hready op hop n hn hbatch)
    · obtain ⟨rfl, htail⟩ := List.cons.inj hsplit
      refine (ih htail).imp_left fun hearlier op hop n hn hbatch => ?_
      rw [List.flatten_cons, List.map_append, List.mem_append, ← or_assoc, ← List.mem_append]
      exact hearlier op hop n hn hbatch

/-! ### Cycles are never placed -/

/-- When all that operations need stands in earlier waves, none of them is on a cycle. -/
theorem not_cycle_of_earlier (h : ∀ past wave rest, waves = past ++ wave :: rest →
    ∀ op ∈ wave, ∀ o ∈ ops, o.key ∈ needs op.key → o ∈ past.flatten) :
    ∀ op ∈ waves.flatten, ¬TransGen (NeedsAmong needs ops) op op := by
  -- along the waves: a cycle through a wave would go on in the waves before it
  suffices hpast : ∀ past rest, waves = past ++ rest →
      ∀ op ∈ past.flatten, ¬TransGen (NeedsAmong needs ops) op op from
    hpast waves [] (List.append_nil _).symm
  intro past
  induction past using List.reverseRecOn with
  | nil => exact fun _ _ _ hop => absurd hop List.not_mem_nil
  | append_singleton past wave ih =>
    intro rest hsplit op hop hcycle
    rw [List.append_assoc] at hsplit
    rw [List.flatten_append, List.mem_append] at hop
    rcases hop with hop | hop
    · exact ih _ hsplit op hop hcycle
    · rw [List.flatten_singleton] at hop
      obtain ⟨o, hneeds, hback⟩ := TransGen.head'_iff.1 hcycle
      have hearlier : o ∈ past.flatten := h _ _ _ hsplit op hop o hneeds.2.1 hneeds.2.2
      exact ih _ hsplit o hearlier (.tail' hback hneeds)

/-- Whatever operations need, in a circle or not, splitting them comes to an end after at most as
many waves as there are operations. The waves are not empty, and together they are the operations,
each once. What an operation needs of the others stands in an earlier wave, unless it is in the last
wave and every operation there needs one of the same wave; and there is such a last wave if and only
if some of the operations need each other in a circle. -/
theorem splitWaves_exact (needs : Reference → List Reference) (ops : List PlannedOp)
    (hnodup : (ops.map (·.key)).Nodup) :
    let waves := splitWaves needs (ops.map (·.key)) [] ops
    waves.length ≤ ops.length ∧ (∀ wave ∈ waves, wave ≠ []) ∧ waves.flatten.Perm ops ∧
      (∀ past wave rest, waves = past ++ wave :: rest →
        (∀ op ∈ wave, ∀ o ∈ ops, o.key ∈ needs op.key → o ∈ past.flatten) ∨
          rest = [] ∧ Knotted needs wave) ∧
      ((∃ past wave, waves = past ++ [wave] ∧ Knotted needs wave) ↔ Circular needs ops) := by
  intro waves
  have hlayers : Layers needs (ops.map (·.key)) [] waves := layers_splitWaves fun n hn => .inr hn
  have hperm : waves.flatten.Perm ops := splitWaves_perm _ _ _ _
  have hsome := hlayers.ne_nil
  have hlength : waves.length ≤ ops.length := by
    rw [← hperm.length_eq]
    exact length_le_length_flatten hsome
  have hearlier : ∀ past wave rest, waves = past ++ wave :: rest →
      (∀ op ∈ wave, ∀ o ∈ ops, o.key ∈ needs op.key → o ∈ past.flatten) ∨
        rest = [] ∧ Knotted needs wave := by
    intro past wave rest hsplit
    refine (hlayers.earlier_or_knotted hsplit).imp_left fun h op hop o ho hneeds => ?_
    have hkey := (h op hop _ hneeds (List.mem_map_of_mem ho)).resolve_left List.not_mem_nil
    obtain ⟨o', ho', heq⟩ := List.mem_map.1 hkey
    have hmem : o' ∈ waves.flatten := by
      rw [hsplit, List.flatten_append]
      exact List.mem_append_left _ ho'
    rwa [← List.inj_on_of_nodup_map hnodup (hperm.mem_iff.1 hmem) ho heq]
  refine ⟨hlength, hsome, hperm, hearlier, ?_, ?_⟩
  · rintro ⟨past, wave, hsplit, hknot⟩
    refine circular_of_knotted (hsome wave (by simp [hsplit])) hknot fun op hop => ?_
    exact hperm.mem_iff.1 (List.mem_flatten.2 ⟨wave, by simp [hsplit], hop⟩)
  · rintro ⟨op, hcycle⟩
    by_contra hno
    have hmem : op ∈ waves.flatten := by
      obtain ⟨o, hneeds, -⟩ := TransGen.head'_iff.1 hcycle
      exact hperm.mem_iff.2 hneeds.1
    refine not_cycle_of_earlier (fun past wave rest hsplit => ?_) op hmem hcycle
    rcases hearlier past wave rest hsplit with h | ⟨rfl, hknot⟩
    · exact h
    · exact absurd ⟨past, wave, hsplit, hknot⟩ hno

/-- The creation of a service. -/
def createService (id : String) : PlannedOp := ⟨.create, Sample.service id id, none, []⟩

/-- Two services that need each other, and one that needs a fourth. -/
def tangledNeeds (r : Reference) : List Reference :=
  (match r.id with
    | "left" => ["right", "free"]
    | "next" => ["free"]
    | "right" => ["left"]
    | _ => []).map (Reference.mk .service)

/-- The two that need each other make the last of three waves. -/
theorem splitWaves_exact_of_tangledNeeds :
    let ops := ["left", "next", "right", "free"].map createService
    let waves := splitWaves tangledNeeds (ops.map (·.key)) [] ops
    (ops.map (·.key)).Nodup ∧ Circular tangledNeeds ops ∧
      waves.map (·.map (·.id)) = [["free"], ["next"], ["left", "right"]] ∧
      ∃ past wave, waves = past ++ [wave] ∧ Knotted tangledNeeds wave := by
  intro ops waves
  have hnodup : (ops.map (·.key)).Nodup := by decide +kernel
  have hleft : createService "left" ∈ ops := List.mem_map_of_mem (by decide)
  have hright : createService "right" ∈ ops := List.mem_map_of_mem (by decide)
  have hcircle : Circular tangledNeeds ops := by
    refine ⟨createService "left", .tail (.single (b := createService "right") ?_) ?_⟩
    · exact ⟨hleft, hright, by decide +kernel⟩
    · exact ⟨hright, hleft, by decide +kernel⟩
  obtain ⟨-, -, -, -, hcycle⟩ := splitWaves_exact tangledNeeds ops hnodup
  exact ⟨hnodup, hcircle, by decide +kernel, hcycle.2 hcircle⟩

end Gateway
