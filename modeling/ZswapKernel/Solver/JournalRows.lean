import ZswapKernel.Solver.Journal

/-!
# What a journal write does to the rows

A journal is read by key (`Journal.get`), so each write is described by what the keys read after it:
`get_of_createPrepared`, `get_of_transition`, `get_of_recordReceipt`. Every write advances the
journal (`Journal.Advances`): a row is never lost, never returns to `PREPARED`, and keeps its state
once that is terminal.

**`TerminalLast`** is the order in which a generation ends: its settlement row is terminal only when
all of its rows are. A write keeps it if it prepares no row of a closed generation and closes a
generation only when nothing else of it is open.
-/

namespace ZswapKernel.Journal

variable {journal journal' : Journal} {jobId : String} {marginMs : Int} {key : OperationKey}

/-! ## Reading by key -/

theorem operationKey_of_get {row : JournalOperation} (h : journal.get key = some row) :
    row.operationKey = key := by
  simpa using List.find?_some h

theorem mem_of_get {row : JournalOperation} (h : journal.get key = some row) : row ∈ journal :=
  List.mem_of_find?_eq_some h

theorem mem_group {row : JournalOperation} {generation : Nat} :
    row ∈ journal.group generation ↔ row ∈ journal ∧ row.generation = generation := by
  unfold group
  simp

theorem mem_group_of_get {row : JournalOperation} (h : journal.get key = some row) :
    row ∈ journal.group key.generation := by
  refine mem_group.mpr ⟨mem_of_get h, ?_⟩
  unfold JournalOperation.generation
  rw [operationKey_of_get h]

theorem get_isSome_of_mem {row : JournalOperation} (h : row ∈ journal) :
    (journal.get row.operationKey).isSome := by
  unfold get
  rw [List.find?_isSome]
  exact ⟨row, h, by simp⟩

/-- With one row for a key, a row is what its key reads. -/
theorem get_of_mem (hkeys : (journal.map (·.operationKey)).Nodup) {row : JournalOperation}
    (h : row ∈ journal) : journal.get row.operationKey = some row := by
  obtain ⟨found, hfound⟩ := Option.isSome_iff_exists.mp (get_isSome_of_mem h)
  have hkey := operationKey_of_get hfound
  rw [List.inj_on_of_nodup_map hkeys (mem_of_get hfound) h hkey] at hfound
  exact hfound

/-- What the keys read after a row is rewritten. -/
theorem get_update (change : JournalOperation → JournalOperation)
    (hchange : ∀ row, (change row).operationKey = row.operationKey) (other : OperationKey) :
    (journal.update key change).get other =
      if other = key then (journal.get key).map change else journal.get other := by
  unfold get update
  induction journal with
  | nil => simp
  | cons row rows ih =>
    rw [List.map_cons, List.find?_cons, List.find?_cons, List.find?_cons, ih]
    by_cases hrow : row.operationKey = key
    · rw [if_pos hrow, hchange]
      by_cases hother : other = key
      · simp [hrow, hother]
      · have hne : row.operationKey ≠ other := fun h => hother (h ▸ hrow)
        simp [hne, hother]
    · rw [if_neg hrow]
      by_cases hother : other = key
      · subst hother
        simp [hrow]
      · simp [hother]

/-! ## The writes -/

/-- A prepared row is new, and nothing else changes. -/
theorem get_of_createPrepared {input : PreparedOperation}
    (h : journal.createPrepared jobId marginMs input = .ok journal') :
    journal.get input.operationKey = none ∧ ∃ row : JournalOperation,
      row.toPreparedOperation = input ∧ row.lifecycleState = .prepared ∧
      ∀ other, journal'.get other =
        if other = input.operationKey then some row else journal.get other := by
  unfold createPrepared at h
  cases hrequire : requirePrepared jobId input with
  | error message =>
    rw [hrequire] at h
    cases h
  | ok =>
    rw [hrequire] at h
    cases hget : journal.get input.operationKey with
    | some found =>
      rw [hget] at h
      cases h
    | none =>
      rw [hget] at h
      cases h
      refine ⟨rfl, { input with
        lifecycleState := .prepared
        retentionUntilMs := input.ttlExpiresAtMs + marginMs }, rfl, rfl, fun other => ?_⟩
      show List.find? _ (_ ++ _) = _
      rw [List.find?_append]
      by_cases hother : other = input.operationKey
      · subst hother
        rw [if_pos rfl, show List.find? _ journal = none from hget]
        simp
      · rw [if_neg hother]
        have hne : input.operationKey ≠ other := fun h => hother h.symm
        simp [hne, get]

/-- A transition repeats a terminal state, or moves its row along an allowed edge. -/
theorem get_of_transition {expectedState nextState : JournalLifecycleState}
    {patch : TransitionPatch}
    (h : journal.transition key expectedState nextState patch = .ok journal') :
    ∃ row, journal.get key = some row ∧
      ((row.lifecycleState = nextState ∧ nextState.terminal ∧ journal' = journal) ∨
        (row.lifecycleState = expectedState ∧ nextState ∈ allowedTransitions expectedState ∧
          ∀ other, journal'.get other =
            if other = key then some (row.patched nextState patch) else journal.get other)) := by
  unfold transition at h
  cases hget : journal.get key with
  | none =>
    rw [hget] at h
    cases h
  | some row =>
    rw [hget] at h
    refine ⟨row, rfl, ?_⟩
    simp only at h
    split at h
    next hrepeat =>
      obtain ⟨_, _, h⟩ := Except.bind_eq_ok.mp h
      cases h
      exact Or.inl ⟨hrepeat.1, hrepeat.2, rfl⟩
    next =>
      obtain ⟨hstate, h⟩ := Except.ite_error_eq_ok.mp h
      obtain ⟨hedge, h⟩ := Except.ite_error_eq_ok.mp h
      obtain ⟨_, _, h⟩ := Except.bind_eq_ok.mp h
      cases h
      refine Or.inr ⟨not_not.mp hstate, not_not.mp hedge, fun other => ?_⟩
      rw [get_update (·.patched nextState patch) (fun _ => rfl), hget]
      rfl

/-- A receipt changes the receipt of its row alone. -/
theorem get_of_recordReceipt {receipt : JournalReceipt}
    (h : journal.recordReceipt key receipt = .ok journal') :
    ∃ row, journal.get key = some row ∧ ∀ other, journal'.get other =
      if other = key then some (row.withReceipt receipt) else journal.get other := by
  unfold recordReceipt at h
  obtain ⟨_, _, h⟩ := Except.bind_eq_ok.mp h
  cases hget : journal.get key with
  | none =>
    rw [hget] at h
    cases h
  | some row =>
    rw [hget] at h
    refine ⟨row, rfl, fun other => ?_⟩
    simp only at h
    split at h
    · cases h
    · cases h
      rw [get_update (·.withReceipt receipt) (fun _ => rfl), hget]
      rfl

/-! ## Keys

The keys of a journal are unique, and a settlement row has the settlement key of its generation. -/

theorem map_operationKey_update (change : JournalOperation → JournalOperation)
    (hchange : ∀ row, (change row).operationKey = row.operationKey) :
    (journal.update key change).map (·.operationKey) = journal.map (·.operationKey) := by
  unfold update
  rw [List.map_map]
  refine List.map_congr_left fun row _ => ?_
  simp only [Function.comp_apply]
  split
  · exact hchange row
  · rfl

theorem keys_of_createPrepared {input : PreparedOperation}
    (h : journal.createPrepared jobId marginMs input = .ok journal') :
    input.operationKey ∉ journal.map (·.operationKey) ∧
      journal'.map (·.operationKey) = journal.map (·.operationKey) ++ [input.operationKey] := by
  have hnone := (get_of_createPrepared h).1
  unfold createPrepared at h
  obtain ⟨_, _, h⟩ := Except.bind_eq_ok.mp h
  rw [hnone] at h
  cases h
  refine ⟨fun hmem => ?_, by simp⟩
  obtain ⟨row, hrow, hkey⟩ := List.mem_map.mp hmem
  have := get_isSome_of_mem hrow
  rw [hkey, hnone] at this
  exact absurd this (by simp)

theorem keys_of_transition {expectedState nextState : JournalLifecycleState}
    {patch : TransitionPatch}
    (h : journal.transition key expectedState nextState patch = .ok journal') :
    journal'.map (·.operationKey) = journal.map (·.operationKey) := by
  unfold transition at h
  cases hget : journal.get key with
  | none =>
    rw [hget] at h
    cases h
  | some row =>
    rw [hget] at h
    simp only at h
    split at h
    · obtain ⟨_, _, h⟩ := Except.bind_eq_ok.mp h
      cases h
      rfl
    · obtain ⟨_, h⟩ := Except.ite_error_eq_ok.mp h
      obtain ⟨_, h⟩ := Except.ite_error_eq_ok.mp h
      obtain ⟨_, _, h⟩ := Except.bind_eq_ok.mp h
      cases h
      exact map_operationKey_update (·.patched nextState patch) fun _ => rfl

theorem keys_of_recordReceipt {receipt : JournalReceipt}
    (h : journal.recordReceipt key receipt = .ok journal') :
    journal'.map (·.operationKey) = journal.map (·.operationKey) := by
  unfold recordReceipt at h
  obtain ⟨_, _, h⟩ := Except.bind_eq_ok.mp h
  cases hget : journal.get key with
  | none =>
    rw [hget] at h
    cases h
  | some row =>
    rw [hget] at h
    simp only at h
    split at h
    · cases h
    · cases h
      exact map_operationKey_update (·.withReceipt receipt) fun _ => rfl

/-! ## Rows only advance -/

/-- The state a key reads. -/
def stateOf (journal : Journal) (key : OperationKey) : Option JournalLifecycleState :=
  (journal.get key).map (·.lifecycleState)

theorem stateOf_of_get {row : JournalOperation} (h : journal.get key = some row) :
    journal.stateOf key = some row.lifecycleState := by
  unfold stateOf
  rw [h]
  rfl

theorem get_of_stateOf {state : JournalLifecycleState} (h : journal.stateOf key = some state) :
    ∃ row, journal.get key = some row ∧ row.lifecycleState = state := by
  unfold stateOf at h
  obtain ⟨row, hrow, hstate⟩ := Option.map_eq_some_iff.mp h
  exact ⟨row, hrow, hstate⟩

/-- No row is lost, none returns to `PREPARED`, and a terminal row keeps its state. -/
structure Advances (journal journal' : Journal) : Prop where
  terminal : ∀ key state, journal.stateOf key = some state → state.terminal →
    journal'.stateOf key = some state
  kept : ∀ key, (journal.stateOf key).isSome → (journal'.stateOf key).isSome
  left : ∀ key, (journal.stateOf key).isSome → journal'.stateOf key = some .prepared →
    journal.stateOf key = some .prepared

theorem Advances.refl (journal : Journal) : Advances journal journal :=
  ⟨fun _ _ h _ => h, fun _ h => h, fun _ _ h => h⟩

theorem Advances.trans {journal'' : Journal} (h : Advances journal journal')
    (h' : Advances journal' journal'') : Advances journal journal'' where
  terminal key state hstate hterminal :=
    h'.terminal key state (h.terminal key state hstate hterminal) hterminal
  kept key hstate := h'.kept key (h.kept key hstate)
  left key hstate hprepared := h.left key hstate (h'.left key (h.kept key hstate) hprepared)

/-- A write of one row advances the journal if the row it writes does. -/
theorem Advances.of_stateOf {written : Option JournalLifecycleState}
    (h : ∀ other, journal'.stateOf other = if other = key then written else journal.stateOf other)
    (hterminal : ∀ state, journal.stateOf key = some state → state.terminal →
      written = some state)
    (hkept : (journal.stateOf key).isSome → written.isSome)
    (hleft : (journal.stateOf key).isSome → written = some .prepared →
      journal.stateOf key = some .prepared) : Advances journal journal' where
  terminal other state hstate hother := by
    rw [h other]
    split
    next heq =>
      subst heq
      exact hterminal state hstate hother
    next => exact hstate
  kept other hstate := by
    rw [h other]
    split
    next heq =>
      subst heq
      exact hkept hstate
    next => exact hstate
  left other hstate hprepared := by
    rw [h other] at hprepared
    split at hprepared
    next heq =>
      subst heq
      exact hleft hstate hprepared
    next => exact hprepared

theorem stateOf_of_createPrepared {input : PreparedOperation}
    (h : journal.createPrepared jobId marginMs input = .ok journal') :
    journal.stateOf input.operationKey = none ∧ ∀ other, journal'.stateOf other =
      if other = input.operationKey then some .prepared else journal.stateOf other := by
  obtain ⟨hnone, row, _, hstate, hget⟩ := get_of_createPrepared h
  refine ⟨by rw [stateOf, hnone]; rfl, fun other => ?_⟩
  rw [stateOf, hget other]
  split
  · rw [Option.map_some, hstate]
  · rfl

/-- What a transition finds and leaves at its key. -/
theorem stateOf_of_transition {expectedState nextState : JournalLifecycleState}
    {patch : TransitionPatch}
    (h : journal.transition key expectedState nextState patch = .ok journal') :
    (journal.stateOf key = some nextState ∧ nextState.terminal ∧ journal' = journal ∨
      journal.stateOf key = some expectedState ∧ nextState ∈ allowedTransitions expectedState) ∧
    ∀ other, journal'.stateOf other =
      if other = key then some nextState else journal.stateOf other := by
  obtain ⟨row, hget, ⟨hstate, hterminal, rfl⟩ | ⟨hstate, hedge, hget'⟩⟩ := get_of_transition h
  · have hkey : journal'.stateOf key = some nextState := by rw [stateOf_of_get hget, hstate]
    refine ⟨Or.inl ⟨hkey, hterminal, rfl⟩, fun other => ?_⟩
    split
    next heq =>
      subst heq
      exact hkey
    next => rfl
  · refine ⟨Or.inr ⟨by rw [stateOf_of_get hget, hstate], hedge⟩, fun other => ?_⟩
    rw [stateOf, hget' other]
    split
    · rfl
    · rfl

theorem stateOf_of_recordReceipt {receipt : JournalReceipt}
    (h : journal.recordReceipt key receipt = .ok journal') (other : OperationKey) :
    journal'.stateOf other = journal.stateOf other := by
  obtain ⟨row, hget, hget'⟩ := get_of_recordReceipt h
  rw [stateOf, hget' other]
  split
  next heq =>
    subst heq
    rw [stateOf_of_get hget]
    rfl
  next => rfl

/-- No edge leaves a terminal state. -/
theorem allowedTransitions_terminal {state : JournalLifecycleState} (h : state.terminal) :
    allowedTransitions state = [] := by
  cases state <;> first | rfl | cases h

/-- No edge leads to `PREPARED`. -/
theorem prepared_notMem_allowedTransitions (state : JournalLifecycleState) :
    .prepared ∉ allowedTransitions state := by
  cases state <;> decide

theorem advances_of_createPrepared {input : PreparedOperation}
    (h : journal.createPrepared jobId marginMs input = .ok journal') :
    Advances journal journal' := by
  obtain ⟨hnone, hstate⟩ := stateOf_of_createPrepared h
  refine Advances.of_stateOf hstate ?_ (fun _ => rfl) ?_
  · intro state hsome
    rw [hnone] at hsome
    cases hsome
  · intro hsome
    rw [hnone] at hsome
    cases hsome

theorem advances_of_transition {expectedState nextState : JournalLifecycleState}
    {patch : TransitionPatch}
    (h : journal.transition key expectedState nextState patch = .ok journal') :
    Advances journal journal' := by
  obtain ⟨⟨_, _, rfl⟩ | ⟨hstate, hedge⟩, hstate'⟩ := stateOf_of_transition h
  · exact Advances.refl journal'
  · refine Advances.of_stateOf hstate' ?_ (fun _ => rfl) ?_
    · intro state hsome hterminal
      cases hstate.symm.trans hsome
      rw [allowedTransitions_terminal hterminal] at hedge
      cases hedge
    · intro _ hprepared
      cases hprepared
      exact absurd hedge (prepared_notMem_allowedTransitions expectedState)

theorem advances_of_recordReceipt {receipt : JournalReceipt}
    (h : journal.recordReceipt key receipt = .ok journal') : Advances journal journal' := by
  have hstate := stateOf_of_recordReceipt h
  exact ⟨fun key state hkey _ => (hstate key).trans hkey,
    fun key hkey => by rwa [hstate key],
    fun key _ hprepared => by rwa [hstate key] at hprepared⟩

/-! ## The settlement row ends a generation -/

/-- The settlement row of the generation is terminal. -/
def Closed (journal : Journal) (generation : Nat) : Prop :=
  ∃ state, journal.stateOf (jobKey generation) = some state ∧ state.terminal

/-- Every row of the generation is terminal. -/
def Over (journal : Journal) (generation : Nat) : Prop :=
  ∀ key state, key.generation = generation → journal.stateOf key = some state → state.terminal

/-- A generation is closed only when it is over. -/
def TerminalLast (journal : Journal) : Prop :=
  ∀ generation, journal.Closed generation → journal.Over generation

theorem Advances.closed {generation : Nat} (h : Advances journal journal')
    (hclosed : journal.Closed generation) : journal'.Closed generation := by
  obtain ⟨state, hstate, hterminal⟩ := hclosed
  exact ⟨state, h.terminal _ _ hstate hterminal, hterminal⟩

/-- A row is prepared in a generation that is not closed. -/
theorem TerminalLast.createPrepared {input : PreparedOperation} (hlast : journal.TerminalLast)
    (h : journal.createPrepared jobId marginMs input = .ok journal')
    (hopen : ¬ journal.Closed input.operationKey.generation) : journal'.TerminalLast := by
  obtain ⟨_, hstate⟩ := stateOf_of_createPrepared h
  rintro generation ⟨state, hclosed, hterminal⟩ key found hkey hfound
  rw [hstate] at hclosed hfound
  have hsettlement : jobKey generation ≠ input.operationKey := by
    intro heq
    rw [if_pos heq] at hclosed
    cases hclosed
    cases hterminal
  rw [if_neg hsettlement] at hclosed
  split at hfound
  next heq =>
    subst heq
    exact absurd ⟨state, hkey ▸ hclosed, hterminal⟩ hopen
  next => exact hlast generation ⟨state, hclosed, hterminal⟩ key found hkey hfound

/-- A transition closes no generation, or one of which nothing else is open. -/
theorem TerminalLast.transition {expectedState nextState : JournalLifecycleState}
    {patch : TransitionPatch} (hlast : journal.TerminalLast)
    (h : journal.transition key expectedState nextState patch = .ok journal')
    (hcloses : key = jobKey key.generation → nextState.terminal →
      ∀ other state, other.generation = key.generation → other ≠ key →
        journal.stateOf other = some state → state.terminal) :
    journal'.TerminalLast := by
  have hadvances := advances_of_transition h
  obtain ⟨_, hstate⟩ := stateOf_of_transition h
  rintro generation ⟨state, hclosed, hterminal⟩ other found hother hfound
  rw [hstate] at hclosed hfound
  split at hclosed
  next heq =>
    -- The settlement row of this generation is the one that moved.
    cases hclosed
    have hgeneration : generation = key.generation := congrArg OperationKey.generation heq
    split at hfound
    · cases hfound
      exact hterminal
    next hne =>
      exact hcloses (hgeneration ▸ heq.symm) hterminal other found (hother.trans hgeneration) hne
        hfound
  next =>
    have hover := hlast generation ⟨state, hclosed, hterminal⟩
    split at hfound
    next heq =>
      subst heq
      obtain ⟨hrow | ⟨hrow, hedge⟩, _⟩ := stateOf_of_transition h
      · cases hfound
        exact hrow.2.1
      · have := hover other _ hother hrow
        rw [allowedTransitions_terminal this] at hedge
        cases hedge
    next => exact hover other found hother hfound

theorem TerminalLast.recordReceipt {receipt : JournalReceipt} (hlast : journal.TerminalLast)
    (h : journal.recordReceipt key receipt = .ok journal') : journal'.TerminalLast := by
  have hstate := stateOf_of_recordReceipt h
  rintro generation ⟨state, hclosed, hterminal⟩ other found hother hfound
  rw [hstate] at hclosed hfound
  exact hlast generation ⟨state, hclosed, hterminal⟩ other found hother hfound

end ZswapKernel.Journal
