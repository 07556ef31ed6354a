import Mathlib
import Ads.Context.Compactor

/-!
# What a round of compaction keeps

A successful round replaces the turns before a safe boundary by one tombstone. The conversation that
the history stands for, its archive and its visible turns together, is the same before and after
(`round_eq_ok`), and fewer messages are visible. By induction on the rounds the tombstone that
`compact` returns stands for the conversation of the request (`compact_conserves`), and the rounds
end because the number of visible messages bounds them.
-/

set_option autoImplicit false
set_option relaxedAutoImplicit false

namespace Ads.Context

open Foundation.StateExcept Python

/-! ### Boundaries -/

/-- Visiting a turn keeps the boundaries, and a tombstone is only visited first. -/
theorem Lifecycle.visit_eq_ok {state next : Lifecycle} {index : ℕ} {item : HistoryTurn}
    (hrun : state.visit index item = .ok next) :
    next.boundaries = state.boundaries ∧ (0 < index → item.isTombstone = false) := by
  unfold Lifecycle.visit at hrun
  split at hrun
  · obtain ⟨_, hfirst, hrun⟩ := except_bind_eq_ok.mp hrun
    obtain rfl := Except.ok.inj hrun
    exact ⟨rfl, fun hindex ↦ absurd (failIf_eq_ok.mp hfirst) (not_not.mpr hindex.ne')⟩
  · obtain ⟨_, -, hrun⟩ := except_bind_eq_ok.mp hrun
    obtain rfl := Except.ok.inj hrun
    exact ⟨rfl, fun _ ↦ rfl⟩
  · split at hrun
    · cases hrun
    · obtain ⟨_, -, hrun⟩ := except_bind_eq_ok.mp hrun
      obtain ⟨_, -, hrun⟩ := except_bind_eq_ok.mp hrun
      obtain ⟨_, -, hrun⟩ := except_bind_eq_ok.mp hrun
      obtain rfl := Except.ok.inj hrun
      exact ⟨rfl, fun _ ↦ rfl⟩
  · obtain rfl := Except.ok.inj hrun
    exact ⟨rfl, fun _ ↦ rfl⟩

/-- A boundary that is marked is a new positive index or was marked before. -/
theorem Lifecycle.mem_mark {state : Lifecycle} {index boundary : ℕ} {item : HistoryTurn}
    (hboundary : boundary ∈ (state.mark index item).boundaries) :
    boundary ∈ state.boundaries ∨ (0 < boundary ∧ boundary = index) := by
  unfold Lifecycle.mark at hboundary
  split at hboundary
  · rename_i hmarked
    rcases List.mem_append.mp hboundary with hold | hnew
    · exact Or.inl hold
    · obtain rfl := List.mem_singleton.mp hnew
      exact Or.inr ⟨hmarked.2.1, rfl⟩
  · exact Or.inl hboundary

/-- The pass over the turns finds boundaries among them, and tombstones only first. -/
theorem visitFrom_eq_ok {items : List HistoryTurn} {index : ℕ} {state final : Lifecycle}
    (hrun : visitFrom index items state = .ok final) :
    (∀ boundary ∈ final.boundaries, boundary ∈ state.boundaries ∨
      (0 < boundary ∧ boundary < index + items.length)) ∧
    (0 < index → items.any HistoryTurn.isTombstone = false) := by
  induction items generalizing index state with
  | nil =>
    obtain rfl := Except.ok.inj hrun
    exact ⟨fun _ hboundary ↦ Or.inl hboundary, fun _ ↦ rfl⟩
  | cons item rest ih =>
    obtain ⟨next, hvisit, hrest⟩ := except_bind_eq_ok.mp hrun
    obtain ⟨hsame, hitem⟩ := Lifecycle.visit_eq_ok hvisit
    obtain ⟨hboundaries, htombstones⟩ := ih hrest
    rw [List.length_cons]
    constructor
    · intro boundary hboundary
      rcases hboundaries boundary hboundary with hnext | ⟨hpos, hlt⟩
      · rw [hsame] at hnext
        rcases Lifecycle.mem_mark hnext with hold | ⟨hpos, rfl⟩
        · exact Or.inl hold
        · exact Or.inr ⟨hpos, by omega⟩
      · exact Or.inr ⟨hpos, by omega⟩
    · intro hindex
      rw [List.any_cons, hitem hindex, htombstones (Nat.succ_pos index), Bool.or_false]

/-- The safe boundaries are inside the history, and no turn behind the first one is a tombstone. -/
theorem safeBoundaries_eq_ok {source : List HistoryTurn} {boundaries : List ℕ}
    (hrun : safeBoundaries source = .ok boundaries) :
    ∀ boundary ∈ boundaries, 0 < boundary ∧ boundary < source.length := by
  obtain ⟨final, hvisit, hrun⟩ := except_bind_eq_ok.mp hrun
  obtain ⟨_, -, hrun⟩ := except_bind_eq_ok.mp hrun
  obtain rfl := Except.ok.inj hrun
  intro boundary hboundary
  rcases (visitFrom_eq_ok hvisit).1 boundary hboundary with hnone | hinside
  · exact absurd hnone List.not_mem_nil
  · simpa using hinside

/-! ### Cutting a history -/

/-- The front of a history starts with the same tombstone. -/
theorem memoryOf_take {source : List HistoryTurn} {split : ℕ} (hsplit : 0 < split) :
    memoryOf (source.take split) = memoryOf source := by
  obtain ⟨count, rfl⟩ := Nat.exists_eq_succ_of_ne_zero hsplit.ne'
  cases source with
  | nil => rfl
  | cons turn rest => cases turn <;> rfl

/-- Behind the tombstone that it starts with, a history is its front and its remainder. -/
theorem turnsOf_take_append_drop {source : List HistoryTurn} {split : ℕ} (hsplit : 0 < split) :
    turnsOf (source.take split) ++ source.drop split = turnsOf source := by
  obtain ⟨count, rfl⟩ := Nat.exists_eq_succ_of_ne_zero hsplit.ne'
  cases source with
  | nil => rfl
  | cons turn rest =>
    cases turn with
    | message item => exact congrArg (_ :: ·) (List.take_append_drop count rest)
    | tombstone memory => exact List.take_append_drop count rest

/-- The messages of a history are behind the tombstone that it starts with. -/
theorem messagesOf_turnsOf (source : List HistoryTurn) :
    messagesOf (turnsOf source) = messagesOf source := by
  cases source with
  | nil => rfl
  | cons turn rest => cases turn <;> rfl

/-- The front that is replaced holds a message. -/
theorem messagesOf_ne_nil {front : List HistoryTurn} (hfront : front ≠ [])
    (honly : isMemoryOnly front = false)
    (hturns : (turnsOf front).any HistoryTurn.isTombstone = false) : messagesOf front ≠ [] := by
  rw [← messagesOf_turnsOf]
  intro hnil
  have hempty : turnsOf front = [] := by rw [← map_messagesOf hturns, hnil, List.map_nil]
  match front with
  | [] => exact hfront rfl
  | .message item :: rest => cases hempty
  | .tombstone memory :: rest =>
    obtain rfl : rest = [] := hempty
    cases honly

/-! ### One round -/

section Rounds

variable {World : Type} {environment : Environment World} {settings : CompactorSettings}
  {world after final : World}

/-- What replaces the front has a fresh identifier and the given summary. -/
theorem replaceFront_eq_ok {front remainder : List HistoryTurn}
    {summary : { summary : Text // IsVisible summary }} {replacement : Tombstone}
    (hrun : replaceFront environment settings front remainder summary world =
      .ok (replacement, after)) :
    ∃ memoryId, replacement = replacementOf front remainder memoryId summary ∧
      (turnsOf front ++ remainder).any HistoryTurn.isTombstone = false := by
  obtain ⟨_, _, -, hrun⟩ := bind_eq_ok.mp hrun
  obtain ⟨_, _, -, hrun⟩ := bind_eq_ok.mp hrun
  obtain ⟨_, _, hposition, hrun⟩ := bind_eq_ok.mp hrun
  obtain ⟨memoryId, _, -, hrun⟩ := bind_eq_ok.mp hrun
  obtain ⟨_, _, -, hrun⟩ := bind_eq_ok.mp hrun
  obtain ⟨_, _, -, hrun⟩ := bind_eq_ok.mp hrun
  obtain ⟨_, _, -, hrun⟩ := bind_eq_ok.mp hrun
  obtain ⟨rfl, -⟩ := pure_eq_ok.mp hrun
  exact ⟨memoryId, rfl, Bool.eq_false_iff.mpr (raiseIf_eq_ok.mp hposition).1⟩

/-- The loop over the ratios replaces the turns before one of the boundaries. -/
theorem compactFront_eq_ok {source : List HistoryTurn} {size : ℤ} {positions : List (ℕ × ℤ)}
    {ratios : List ℤ} {seen : List ℕ} {replacement : Tombstone}
    (hrun : compactFront environment settings source size positions ratios seen world =
      .ok (replacement, after)) :
    ∃ split memoryId summary, split ∈ positions.map Prod.fst ∧
      isMemoryOnly (source.take split) = false ∧
      replacement = replacementOf (source.take split) (source.drop split) memoryId summary ∧
      (turnsOf (source.take split) ++ source.drop split).any HistoryTurn.isTombstone = false := by
  induction ratios generalizing seen world with
  | nil => exact absurd hrun throw_ne_ok
  | cons ratio ratios ih =>
    unfold compactFront at hrun
    cases hsplit : splitFor environment size positions ratio with
    | none => exact ih (by simpa only [hsplit] using hrun)
    | some split =>
      simp only [hsplit] at hrun
      split_ifs at hrun with hseen honly
      · exact ih hrun
      · exact ih hrun
      · obtain ⟨attempt, between, -, hrun⟩ := bind_eq_ok.mp hrun
        cases attempt with
        | none => exact ih hrun
        | some summary =>
          obtain ⟨memoryId, hreplacement, hturns⟩ := replaceFront_eq_ok hrun
          obtain ⟨position, hfind, hposition⟩ := Option.map_eq_some_iff.mp hsplit
          have hmem : split ∈ positions.map Prod.fst :=
            List.mem_map.mpr ⟨position, List.mem_of_find?_eq_some hfind, hposition⟩
          exact ⟨split, memoryId, summary, hmem, Bool.eq_false_iff.mpr honly, hreplacement, hturns⟩

/-- A tombstone in place of the front stands with the remainder for the same conversation. -/
theorem conversation_replacementOf {source : List HistoryTurn} {split : ℕ} {memoryId : Uuid}
    {summary : { summary : Text // IsVisible summary }} (hsplit : 0 < split)
    (hturns : (turnsOf (source.take split) ++ source.drop split).any HistoryTurn.isTombstone = false) :
    conversation (activeContext
      (replacementOf (source.take split) (source.drop split) memoryId summary)) =
        conversation source := by
  rw [List.any_append, Bool.or_eq_false_iff] at hturns
  calc conversation (activeContext
        (replacementOf (source.take split) (source.drop split) memoryId summary))
      = (archiveOf (memoryOf (source.take split))).map .message ++
          ((messagesOf (turnsOf (source.take split))).map .message ++
            (messagesOf (source.drop split)).map .message) := by
        rw [conversation_activeContext, Tombstone.archive_eq, List.map_append, List.map_append,
          List.append_assoc]
        rfl
    _ = (archiveOf (memoryOf source)).map .message ++
          (turnsOf (source.take split) ++ source.drop split) := by
        rw [map_messagesOf hturns.1, map_messagesOf hturns.2, memoryOf_take hsplit]
    _ = conversation source := by
        rw [turnsOf_take_append_drop hsplit]
        rfl

/-- A tombstone in place of the front leaves fewer messages visible. -/
theorem length_replacementOf_lt {source : List HistoryTurn} {split : ℕ} {memoryId : Uuid}
    {summary : { summary : Text // IsVisible summary }} (hsplit : 0 < split)
    (hlength : split < source.length) (honly : isMemoryOnly (source.take split) = false)
    (hturns : (turnsOf (source.take split) ++ source.drop split).any HistoryTurn.isTombstone = false) :
    (messagesOf (activeContext
      (replacementOf (source.take split) (source.drop split) memoryId summary))).length <
        (messagesOf source).length := by
  rw [List.any_append, Bool.or_eq_false_iff] at hturns
  have hfront : source.take split ≠ [] := by
    rw [ne_eq, List.take_eq_nil_iff, not_or]
    exact ⟨hsplit.ne', List.ne_nil_of_length_pos (hsplit.trans hlength)⟩
  have hmessages := List.length_pos_iff.mpr (messagesOf_ne_nil hfront honly hturns.1)
  have hvisible : messagesOf (activeContext
      (replacementOf (source.take split) (source.drop split) memoryId summary)) =
        messagesOf (source.drop split) := messagesOf_map_message _
  have hsource : messagesOf source =
      messagesOf (source.take split) ++ messagesOf (source.drop split) := by
    rw [← messagesOf_append, List.take_append_drop]
  rw [hvisible, hsource, List.length_append]
  omega

/-- A round that ends finds the history small enough, or puts a tombstone in place of its front: the
conversation is the same and fewer messages are visible. -/
theorem round_eq_ok {target : ℤ} {state next : Working}
    (hrun : round environment settings target state world = .ok (next, after)) :
    (next = { state with done := true } ∧ state.memory.isSome = true) ∨
      ∃ replacement, next = ⟨activeContext replacement, some replacement, false⟩ ∧
        conversation next.source = conversation state.source ∧
        (messagesOf next.source).length < (messagesOf state.source).length := by
  obtain ⟨size, _, -, hrun⟩ := bind_eq_ok.mp hrun
  split_ifs at hrun with hfits
  · obtain ⟨rfl, -⟩ := pure_eq_ok.mp hrun
    exact Or.inl ⟨rfl, hfits.1⟩
  · obtain ⟨boundaries, _, hboundaries, hrun⟩ := bind_eq_ok.mp hrun
    obtain ⟨positions, _, hpositions, hrun⟩ := bind_eq_ok.mp hrun
    obtain ⟨replacement, _, hreplacement, hrun⟩ := bind_eq_ok.mp hrun
    obtain ⟨rfl, -⟩ := pure_eq_ok.mp hrun
    obtain ⟨split, memoryId, summary, hsplit, honly, rfl, hturns⟩ := compactFront_eq_ok hreplacement
    have hmem : split ∈ boundaries := by
      obtain ⟨position, hposition, rfl⟩ := List.mem_map.mp hsplit
      obtain ⟨index, hindex, _, _, hmeasured⟩ := mapM_eq_ok hpositions position hposition
      obtain ⟨_, _, -, hmeasured⟩ := bind_eq_ok.mp hmeasured
      obtain ⟨rfl, -⟩ := pure_eq_ok.mp hmeasured
      exact hindex
    obtain ⟨hpos, hlength⟩ := safeBoundaries_eq_ok (lift_eq_ok.mp hboundaries).1 split hmem
    exact Or.inr ⟨_, rfl, conversation_replacementOf hpos hturns,
      length_replacementOf_lt hpos hlength honly hturns⟩

/-- The rounds keep the conversation, and end with the context of a tombstone. -/
theorem rounds_eq_ok {target : ℤ} {fuel : ℕ} {state last : Working}
    (hstate : ∀ memory ∈ state.memory, state.source = activeContext memory)
    (hrun : rounds environment settings target fuel state world = .ok (last, final)) :
    conversation last.source = conversation state.source ∧
      ∀ memory ∈ last.memory, last.source = activeContext memory := by
  induction fuel generalizing state world with
  | zero =>
    unfold rounds at hrun
    split_ifs at hrun
    obtain ⟨rfl, -⟩ := Prod.mk.inj (Except.ok.inj hrun)
    exact ⟨rfl, hstate⟩
  | succ fuel ih =>
    unfold rounds at hrun
    split_ifs at hrun
    · obtain ⟨rfl, -⟩ := Prod.mk.inj (Except.ok.inj hrun)
      exact ⟨rfl, hstate⟩
    · cases hround : round environment settings target state world with
      | error failure => rw [hround] at hrun; cases hrun
      | ok pair =>
        obtain ⟨next, between⟩ := pair
        rw [hround] at hrun
        rcases round_eq_ok hround with ⟨rfl, -⟩ | ⟨replacement, rfl, hsame, -⟩
        · obtain ⟨hlast, hmemory⟩ := ih (by exact hstate) hrun
          exact ⟨hlast, hmemory⟩
        · obtain ⟨hlast, hmemory⟩ := ih (by rintro _ ⟨⟩; rfl) hrun
          exact ⟨hlast.trans hsame, hmemory⟩

/-- As many rounds as the visible messages and one more are enough. -/
theorem rounds_ne_outOfFuel {target : ℤ} {fuel : ℕ} {state : Working}
    (hfuel : state.done = true ∨ (messagesOf state.source).length < fuel) :
    rounds environment settings target fuel state world ≠ .error .outOfFuel := by
  induction fuel generalizing state world with
  | zero =>
    unfold rounds
    rw [if_pos (hfuel.resolve_right (Nat.not_lt_zero _))]
    nofun
  | succ fuel ih =>
    unfold rounds
    split_ifs with hdone
    · nofun
    · cases hround : round environment settings target state world with
      | error failure => simp
      | ok pair =>
        obtain ⟨next, between⟩ := pair
        rcases round_eq_ok hround with ⟨rfl, -⟩ | ⟨replacement, -, -, hless⟩
        · exact ih (Or.inl rfl)
        · have hlength := hfuel.resolve_left hdone
          exact ih (Or.inr (by omega))

end Rounds

/-- Whatever the meter and the model do, the rounds of a compaction end, and if `compact` returns a
tombstone, its archive and the turns it keeps visible are the archive of the tombstone that the
history started with and the other turns, in order; otherwise it returns nothing but the failure. -/
theorem compact_conserves {World : Type} (environment : Environment World)
    (settings : CompactorSettings) (request : CompactRequest) (world : World) :
    compact environment settings request world ≠ .error .outOfFuel ∧
      ∀ result final, compact environment settings request world = .ok (result, final) →
        result.archive.map HistoryTurn.message ++ result.remainingMessages.map .message =
          (archiveOf (memoryOf request.messages)).map .message ++ turnsOf request.messages := by
  have hends : rounds environment settings
      (request.targetPercentage * request.maxContextTokens / 100) (request.messages.length + 1)
      ⟨request.messages, none, false⟩ world ≠ .error .outOfFuel :=
    rounds_ne_outOfFuel (Or.inr (Nat.lt_succ_of_le (List.length_filterMap_le _ _)))
  unfold compact
  dsimp only
  split
  · exact ⟨by simp, nofun⟩
  · rename_i halted _ hrun
    rw [hrun] at hends
    exact ⟨fun heq ↦ hends (congrArg _ (Except.error.inj heq)), nofun⟩
  · rename_i state final hrun
    obtain ⟨hsame, hmemory⟩ := rounds_eq_ok (by rintro _ ⟨⟩) hrun
    split
    · exact ⟨by simp, nofun⟩
    · rename_i result hresult
      refine ⟨nofun, fun other last heq ↦ ?_⟩
      obtain ⟨rfl, -⟩ := Prod.mk.inj (Except.ok.inj heq)
      rw [hmemory result hresult, conversation_activeContext, List.map_append] at hsame
      exact hsame

/-- Whatever the meter and the model do, a round that neither fails nor ends leaves fewer messages
visible, so there is no endless run of rounds: one more than the visible messages are enough, and
`compact` returns or fails. -/
theorem compact_terminates {World : Type} (environment : Environment World)
    (settings : CompactorSettings) (request : CompactRequest) (world : World) :
    (∀ target state now next after,
      round environment settings target state now = .ok (next, after) →
        (next.done = true ∧ next.source = state.source) ∨
          (messagesOf next.source).length < (messagesOf state.source).length) ∧
    (∀ target, ¬ ∃ trace : ℕ → Working × World, ∀ step, (trace step).1.done = false ∧
      round environment settings target (trace step).1 (trace step).2 = .ok (trace (step + 1))) ∧
    (∀ target state fuel, (messagesOf state.source).length < fuel →
      rounds environment settings target fuel state world ≠ .error .outOfFuel) ∧
    compact environment settings request world ≠ .error .outOfFuel := by
  have hstep : ∀ target state now next after,
      round environment settings target state now = .ok (next, after) →
        (next.done = true ∧ next.source = state.source) ∨
          (messagesOf next.source).length < (messagesOf state.source).length := by
    intro target state now next after hround
    rcases round_eq_ok hround with ⟨rfl, -⟩ | ⟨_, -, -, hless⟩
    · exact Or.inl ⟨rfl, rfl⟩
    · exact Or.inr hless
  refine ⟨hstep, fun target hendless ↦ ?_, fun target state fuel hfuel ↦
    rounds_ne_outOfFuel (Or.inr hfuel), ?_⟩
  · obtain ⟨trace, htrace⟩ := hendless
    -- The visible messages of an endless run would decrease for ever.
    have hless : ∀ step, (messagesOf (trace (step + 1)).1.source).length <
        (messagesOf (trace step).1.source).length := by
      intro step
      rcases hstep _ _ _ _ _ (htrace step).2 with ⟨hdone, -⟩ | hless
      · rw [(htrace (step + 1)).1] at hdone
        exact absurd hdone Bool.false_ne_true
      · exact hless
    have hanti : StrictAnti fun step ↦ (messagesOf (trace step).1.source).length :=
      strictAnti_nat_of_succ_lt hless
    exact not_strictAnti_of_wellFoundedLT _ hanti
  · have hends : rounds environment settings
        (request.targetPercentage * request.maxContextTokens / 100) (request.messages.length + 1)
        ⟨request.messages, none, false⟩ world ≠ .error .outOfFuel :=
      rounds_ne_outOfFuel (Or.inr (Nat.lt_succ_of_le (List.length_filterMap_le _ _)))
    unfold compact
    dsimp only
    split
    · simp
    · rename_i halted _ hrun
      rw [hrun] at hends
      exact fun heq ↦ hends (congrArg _ (Except.error.inj heq))
    · split
      · simp
      · simp

namespace Example

/-- A meter that charges a turn ten tokens and a tombstone one, and a model that answers in form. -/
def environment : Environment Unit where
  meter messages := pure <| some <|
    (messages.map fun turn ↦ if turn.isTombstone then 1 else 10).sum
  run frame := pure (.ok (openTag ++ "1".toList ++ closeTag, frame))
  uuid4 := pure 0
  decodeSummary body := some body
  quotient first second := first / second

/-- Three user turns that have to fit into twenty tokens. -/
def request : CompactRequest where
  messages := ["a", "b", "c"].map fun text ↦ .message (.user text.toList)
  maxContextTokens := 40
  targetPercentage := 50
  maxContextTokens_pos := by decide
  targetPercentage_valid := by decide

end Example

/-- The first two of the turns are archived and the last one stays visible. -/
example : (compact Example.environment ⟨1, 10, 1, 1, 1, by decide, by decide⟩ Example.request ()).map
    (fun pair ↦ (pair.1.messages.length, pair.1.remainingMessages.length)) = .ok (2, 1) := by
  decide +kernel

end Ads.Context
