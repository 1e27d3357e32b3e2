import HermezNode.TxSelector.Pipeline
import HermezNode.TxSelector.Fees

/-!
# The selection loop

`getL1L2TxSelection` prepares its list (`prepareSelection`), hands it to a verifier goroutine and
handles, in a `select` loop, what the verifier sends back: L1 coordinator txs to process, txs
selected, not selected or unforjable, account authorizations, a failed atomic group, an error, and
the end of a round.  A round that selected something starts a new round on the txs it did not
select; a failed group is recorded and the whole selection restarts (`goto START_SELECTION`), the
group now dropped by `filterFailedAtomicGroups`.

The verifier and the state-DB operations are oracles (`SelectionEnv`): for each round the verifier
gives the events the loop receives, in order.  When the last round ends the loop pays the fees the
processor accumulated into the coordinator's accounts (`distributeAccumulatedFees`, over the local
accounts DB `AccountsDB`).  Go's loops are unbounded, so the model's two loops
take fuel (`runRounds`, `runAttempts`); a run records, besides its result, how often it restarted
and, for each attempt that reached the loop, the length of its list and the rounds it ran (`Run`).

The assumptions are those of the spec: `GetPendingTxs` returns the same pool on every attempt,
and in every round the verifier either sorts each tx it was given into exactly one of selected,
non-selected and unforjable, and then ends the round, or reports as failed the group of an atomic
tx it was given (`VerifierContract`).  The verifier may write its reasons (`Info`, `ErrorCode`,
`ErrorType`) into the txs it sends back, and is assumed to keep the contract only on the inputs a
round can pass it: txs of the pool, each at most once, up to those fields
(`VerifierKeepsContract`).

* `handleEvents_round` : a round returns, or restarts on a group of its input, or starts a new
  round on fewer txs, all of them from its input; the attempt holds the same txs throughout
  (`RoundEnd.Valid`);
* `runRounds_spec` : an attempt on a list of `n` txs ends within `n + 1` rounds;
* `getL1L2TxSelection_returns` : **the selection always returns**, after at most as many restarts
  as the pool has distinct atomic groups, each attempt within its list's length plus one rounds;
* `getL1L2TxSelection_accounts` : **every pending tx is selected or discarded, once**: a
  selection returned, its selected and discarded txs together, is the pool up to annotations.

The measure of the attempts is the pool's groups that have not failed (`openGroups`): a restart
fails a group of the list, and the list holds no tx of a failed group.
-/

namespace HermezNode

namespace TxSelector

/-- What the verifier goroutine sends the `select` loop.  The L1 txs are of a type `L1Tx` that the
loop only stores. -/
inductive VerifierEvent (L1Tx : Type) where
  /-- `txsL1ToBeProcessedChan` -/
  | l1CoordTx (tx : L1Tx)
  /-- `nonSelectedL2TxsChan` -/
  | nonSelected (tx : PoolL2Tx)
  /-- `selectedL2TxsChan` -/
  | selected (tx : PoolL2Tx)
  /-- `unforjableL2TxsChan` -/
  | unforjable (tx : PoolL2Tx)
  /-- `accAuthsChan` -/
  | accAuth (accAuth : List UInt8)
  /-- `failedAGChan` -/
  | failedAG (failedAG : FailedAtomicGroup)
  /-- `errChan` -/
  | error (err : String)
  /-- `verificationEnded` -/
  | verificationEnded

namespace VerifierEvent

variable {L1Tx : Type}

/-- The events a round sends before its end: all but `failedAG` and `verificationEnded`. -/
@[simp]
def inRound : VerifierEvent L1Tx → Bool
  | .failedAG _ | .verificationEnded => false
  | _ => true

/-- The tx a `nonSelected` event carries. -/
@[simp]
def nonSelected? : VerifierEvent L1Tx → Option PoolL2Tx
  | .nonSelected tx => some tx
  | _ => none

/-- The tx a `selected` event carries. -/
@[simp]
def selected? : VerifierEvent L1Tx → Option PoolL2Tx
  | .selected tx => some tx
  | _ => none

/-- The tx an `unforjable` event carries. -/
@[simp]
def unforjable? : VerifierEvent L1Tx → Option PoolL2Tx
  | .unforjable tx => some tx
  | _ => none

/-- The tx the event sorts into one of the three outcomes, if it sorts one. -/
@[simp]
def classified? : VerifierEvent L1Tx → Option PoolL2Tx
  | .nonSelected tx | .selected tx | .unforjable tx => some tx
  | _ => none

end VerifierEvent

/-- The assumption on the verifier, for a round given `input`: either it sorts every tx of
`input` into exactly one outcome, then ends the round; or it reports as failed the non-empty
group of an atomic tx of `input`.  The txs it sorts are those of `input` up to the reasons it may
write into them (`PoolL2Tx.erase`).  Other events (L1 txs, authorizations, errors) may come
before. -/
def VerifierContract {L1Tx : Type} (input : List PoolL2Tx) (events : List (VerifierEvent L1Tx)) :
    Prop :=
  (∃ body, events = body ++ [.verificationEnded] ∧ (∀ e ∈ body, e.inRound = true) ∧
    ((body.filterMap VerifierEvent.classified?).map PoolL2Tx.erase).Perm
      (input.map PoolL2Tx.erase)) ∨
  (∃ body f, events = body ++ [.failedAG f] ∧ (∀ e ∈ body, e.inRound = true) ∧
    f.id ≠ emptyAtomicGroupID ∧ ∃ tx ∈ input, tx.atomicGroupID = f.id)

/-- What `getL1L2TxSelection` reads besides its own code.  The pool snapshot is one value: the
spec assumes `GetPendingTxs` returns the same pool on every attempt.  The other operations act on
the state DB, which is not modelled: each may answer anything, differently on every attempt (the
`ℕ` argument), and the verifier differently on every round of every attempt.  The fee loop reads
and writes the local accounts DB, of states `S`, through `localAccountsDB`. -/
structure SelectionEnv (L1Tx S : Type) where
  k : SelectorConsts
  /-- The runtime's choices in the preparation of each attempt. -/
  runtime : ℕ → PrepRuntime
  l1UserTxs : List L1Tx
  /-- `tp.ProcessL1Tx` -/
  processL1Tx : ℕ → L1Tx → Except String Unit
  /-- `txsel.l2db.GetPendingTxs` -/
  getPendingTxs : Except String (List PoolL2Tx)
  /-- The events the verifier sends in round `r` of attempt `n`, given its input. -/
  verify : ℕ → ℕ → List PoolL2Tx → List (VerifierEvent L1Tx)
  /-- `tp.StateDB().GetAccount` -/
  getAccount : ℕ → Idx → Except String Account
  /-- `txsel.getCoordIdx` -/
  getCoordIdx : ℕ → TokenID → Except String Idx
  /-- `txsel.localAccountsDB.Reset` -/
  resetDB : ℕ → Except String Unit
  /-- `txsel.localAccountsDB`, as the fee loop uses it. -/
  localAccountsDB : AccountsDB S
  /-- The local accounts DB as attempt `n` leaves it when its last round ends. -/
  accounts : ℕ → S
  /-- `tp.AccumulatedFees` when the last round of attempt `n` ends. -/
  accumulatedFees : ℕ → GoMap Idx ℤ
  /-- The order in which the runtime visits `tp.AccumulatedFees` at attempt `n`. -/
  feesOrder : ℕ → RangeOrder ((_ : Idx) × ℤ)
  /-- `tp.StateDB().MakeCheckpoint` -/
  makeCheckpoint : ℕ → Except String Unit

/-- The values `getL1L2TxSelection` returns without error. -/
structure Selection (L1Tx : Type) where
  coordIdxs : List Idx
  accAuths : List (List UInt8)
  l1UserTxs : List L1Tx
  l1CoordinatorTxs : List L1Tx
  selectedTxs : List PoolL2Tx
  discardedTxs : List PoolL2Tx

/-- The variables of one attempt, declared after `START_SELECTION` and so reset by a restart;
`selectableTxs` is the input of the current round. -/
structure Attempt (L1Tx : Type) where
  selectableTxs : List PoolL2Tx
  discardedTxs : List PoolL2Tx
  accAuths : List (List UInt8)
  l1CoordinatorTxs : List L1Tx
  selectedTxs : List PoolL2Tx
  nonSelectedTxs : List PoolL2Tx
  iteSelectedTxs : List PoolL2Tx
  coordIdxs : List Idx
  coordIdxsMap : GoMap TokenID Idx

/-- A round starts with nothing yet received as selected or non-selected. -/
def Attempt.Fresh {L1Tx : Type} (att : Attempt L1Tx) : Prop :=
  att.nonSelectedTxs = [] ∧ att.iteSelectedTxs = []

/-- The txs an attempt holds at the start of a round: selected, discarded, and still to verify. -/
def Attempt.heldTxs {L1Tx : Type} (att : Attempt L1Tx) : List PoolL2Tx :=
  att.selectedTxs ++ att.discardedTxs ++ att.selectableTxs

/-- `att'` is `att` after the in-round events `es`: the same input, and the txs the events carry
appended to the lists they go to. -/
structure Attempt.Received {L1Tx : Type} (att att' : Attempt L1Tx) (es : List (VerifierEvent L1Tx)) :
    Prop where
  selectable : att'.selectableTxs = att.selectableTxs
  nonSelected : att'.nonSelectedTxs = att.nonSelectedTxs ++ es.filterMap VerifierEvent.nonSelected?
  iteSelected : att'.iteSelectedTxs = att.iteSelectedTxs ++ es.filterMap VerifierEvent.selected?
  selected : att'.selectedTxs = att.selectedTxs ++ es.filterMap VerifierEvent.selected?
  discarded : att'.discardedTxs = att.discardedTxs ++ es.filterMap VerifierEvent.unforjable?

/-- How a round ends: `getL1L2TxSelection` returns, or restarts, or a new round starts. -/
inductive RoundEnd (L1Tx : Type) where
  | ret (res : Except String (Selection L1Tx))
  | restart (failedAG : FailedAtomicGroup)
  | nextRound (att : Attempt L1Tx)

/-- A run of `getL1L2TxSelection`: its result, its restarts, and for each attempt that reached
the loop the length of its list and the rounds it ran. -/
structure Run (L1Tx : Type) where
  result : Except String (Selection L1Tx)
  restarts : ℕ
  rounds : List (ℕ × ℕ)

section Loop

variable {L1Tx S : Type} (env : SelectionEnv L1Tx S)

/-- One case of the `select` loop of attempt `n`: the attempt carries on (`inl`) or the round
ends (`inr`). -/
def handleEvent (n : ℕ) (att : Attempt L1Tx) : VerifierEvent L1Tx → Attempt L1Tx ⊕ RoundEnd L1Tx
  | .l1CoordTx tx =>
    match env.processL1Tx n tx with
    | .error err => .inr (.ret (.error err))
    | .ok () => .inl { att with l1CoordinatorTxs := att.l1CoordinatorTxs ++ [tx] }
  | .nonSelected tx => .inl { att with nonSelectedTxs := att.nonSelectedTxs ++ [tx] }
  | .selected tx =>
    let att := { att with
      iteSelectedTxs := att.iteSelectedTxs ++ [tx], selectedTxs := att.selectedTxs ++ [tx] }
    match env.getAccount n tx.fromIdx with
    | .error err => .inr (.ret (.error err))
    | .ok accSender =>
      match env.getCoordIdx n accSender.tokenID with
      | .error err => .inr (.ret (.error err))
      | .ok coordIdx =>
        if (att.coordIdxsMap.lookup accSender.tokenID).isNone then
          .inl { att with
            coordIdxsMap := att.coordIdxsMap.insert accSender.tokenID coordIdx,
            coordIdxs := att.coordIdxs ++ [coordIdx] }
        else .inl att
  | .unforjable tx => .inl { att with discardedTxs := att.discardedTxs ++ [tx] }
  | .accAuth accAuth => .inl { att with accAuths := att.accAuths ++ [accAuth] }
  | .failedAG failedAG =>
    match env.resetDB n with
    | .error err => .inr (.ret (.error err))
    | .ok () => .inr (.restart failedAG)
  | .error err => .inr (.ret (.error err))
  | .verificationEnded =>
    if att.iteSelectedTxs.length = 0 then
      let discardedTxs := att.discardedTxs ++ att.nonSelectedTxs
      let coordIdxs := sliceStable (fun i j => decide (i < j)) att.coordIdxs
      match (distributeAccumulatedFees env.localAccountsDB (env.feesOrder n)
          (env.accumulatedFees n) (env.accounts n)).2 with
      | .error err => .inr (.ret (.error err))
      | .ok () =>
        match env.makeCheckpoint n with
        | .error err => .inr (.ret (.error err))
        | .ok () => .inr (.ret (.ok ⟨coordIdxs, att.accAuths, env.l1UserTxs, att.l1CoordinatorTxs,
            att.selectedTxs, discardedTxs⟩))
    else
      .inr (.nextRound { att with
        iteSelectedTxs := [], selectableTxs := att.nonSelectedTxs, nonSelectedTxs := [] })

/-- The `select` loop over the events of one round; `none` when the events run out before the
round ends, where Go would wait forever. -/
def handleEvents (n : ℕ) (att : Attempt L1Tx) : List (VerifierEvent L1Tx) → Option (RoundEnd L1Tx)
  | [] => none
  | e :: es =>
    match handleEvent env n att e with
    | .inl att => handleEvents n att es
    | .inr roundEnd => some roundEnd

/-- `START_SELECTION` up to the first round of attempt `n`: the L1 user txs are processed, the
pool read and the list prepared; an empty list ends the call (`inr`). -/
def startSelection (n : ℕ) (failedAtomicGroups : GoMap AtomicGroupID FailedAtomicGroup) :
    Attempt L1Tx ⊕ Except String (Selection L1Tx) :=
  match env.l1UserTxs.forM (env.processL1Tx n) with
  | .error err => .inr (.error err)
  | .ok () =>
    match env.getPendingTxs with
    | .error err => .inr (.error err)
    | .ok l2TxsFromDB =>
      let prepared := prepareSelection env.k (env.runtime n) l2TxsFromDB failedAtomicGroups
      if prepared.1.length = 0 then
        match env.makeCheckpoint n with
        | .error err => .inr (.error err)
        | .ok () => .inr (.ok ⟨[], [], env.l1UserTxs, [], [], prepared.2⟩)
      else .inl ⟨prepared.1, prepared.2, [], [], [], [], [], [], ∅⟩

/-- The rounds of attempt `n` from round `round` on, at most `fuel` of them: how the attempt
ends (a result, or a failed group), and the rounds run. -/
def runRounds (n : ℕ) :
    ℕ → ℕ → Attempt L1Tx → Option ((Except String (Selection L1Tx) ⊕ FailedAtomicGroup) × ℕ)
  | 0, _, _ => none
  | fuel + 1, round, att =>
    match handleEvents env n att (env.verify n round att.selectableTxs) with
    | none => none
    | some (.ret res) => some (.inl res, 1)
    | some (.restart failedAG) => some (.inr failedAG, 1)
    | some (.nextRound att) => (runRounds n fuel (round + 1) att).map fun r => (r.1, r.2 + 1)

/-- The attempts from attempt `n` on, at most `fuel` of them, each of at most `roundFuel`
rounds. -/
def runAttempts (roundFuel : ℕ) :
    ℕ → ℕ → GoMap AtomicGroupID FailedAtomicGroup → Option (Run L1Tx)
  | 0, _, _ => none
  | fuel + 1, n, failedAtomicGroups =>
    match startSelection env n failedAtomicGroups with
    | .inr res => some ⟨res, 0, []⟩
    | .inl att =>
      match runRounds env n roundFuel 0 att with
      | none => none
      | some (.inl res, rounds) => some ⟨res, 0, [(att.selectableTxs.length, rounds)]⟩
      | some (.inr failedAG, rounds) =>
        (runAttempts roundFuel fuel (n + 1) (failedAtomicGroups.insert failedAG.id failedAG)).map
          fun run => ⟨run.result, run.restarts + 1, (att.selectableTxs.length, rounds) :: run.rounds⟩

/-- `getL1L2TxSelection`, with at most `restartFuel` attempts of at most `roundFuel` rounds. -/
def getL1L2TxSelection (restartFuel roundFuel : ℕ) : Option (Run L1Tx) :=
  runAttempts env roundFuel restartFuel 0 ∅

end Loop

/-! ### One round -/

section Round

variable {L1Tx : Type}

/-- The txs a round sorts are its non-selected, its selected and its unforjable txs. -/
theorem filterMap_classified_perm (body : List (VerifierEvent L1Tx)) :
    (body.filterMap VerifierEvent.classified?).Perm (body.filterMap VerifierEvent.nonSelected? ++
      body.filterMap VerifierEvent.selected? ++ body.filterMap VerifierEvent.unforjable?) := by
  induction body with
  | nil => rfl
  | cons e body ih =>
    simp only [List.append_assoc] at ih
    cases e <;> simp only [List.filterMap_cons, VerifierEvent.classified?, VerifierEvent.nonSelected?,
      VerifierEvent.selected?, VerifierEvent.unforjable?, List.append_assoc, List.cons_append, ih]
    case nonSelected tx => exact ih.cons tx
    case selected tx => exact (ih.cons tx).trans List.perm_middle.symm
    case unforjable tx =>
      exact (ih.cons tx).trans (List.perm_middle.symm.trans (List.perm_middle.symm.append_left _))

theorem Attempt.Received.nil (att : Attempt L1Tx) : att.Received att [] :=
  ⟨rfl, by simp, by simp, by simp, by simp⟩

theorem Attempt.Received.cons {att att₁ att' : Attempt L1Tx} {e : VerifierEvent L1Tx}
    {es : List (VerifierEvent L1Tx)} (h₁ : att.Received att₁ [e]) (h₂ : att₁.Received att' es) :
    att.Received att' (e :: es) := by
  have key : ∀ (f : VerifierEvent L1Tx → Option PoolL2Tx) (a : List PoolL2Tx),
      a ++ [e].filterMap f ++ es.filterMap f = a ++ (e :: es).filterMap f := fun f a => by
    rw [List.append_assoc, ← List.filterMap_append, List.singleton_append]
  exact ⟨h₂.1.trans h₁.1, by rw [h₂.2, h₁.2, key], by rw [h₂.3, h₁.3, key],
    by rw [h₂.4, h₁.4, key], by rw [h₂.5, h₁.5, key]⟩

variable {S : Type} (env : SelectionEnv L1Tx S) (n : ℕ)

/-- **One event inside a round** returns an error, or carries on with the same input, recording
the tx it carries. -/
theorem handleEvent_inRound {e : VerifierEvent L1Tx} (he : e.inRound = true) (att : Attempt L1Tx) :
    (∃ err, handleEvent env n att e = .inr (.ret (.error err))) ∨
      ∃ att', handleEvent env n att e = .inl att' ∧ att.Received att' [e] := by
  cases e with
  | l1CoordTx tx =>
    rw [handleEvent]
    cases env.processL1Tx n tx with
    | error err => exact .inl ⟨err, rfl⟩
    | ok u => exact .inr ⟨_, rfl, by constructor <;> simp⟩
  | nonSelected tx => exact .inr ⟨_, rfl, by constructor <;> simp⟩
  | selected tx =>
    rw [handleEvent]
    dsimp only
    cases env.getAccount n tx.fromIdx with
    | error err => exact .inl ⟨err, rfl⟩
    | ok accSender =>
      dsimp only
      cases env.getCoordIdx n accSender.tokenID with
      | error err => exact .inl ⟨err, rfl⟩
      | ok coordIdx =>
        dsimp only
        split_ifs <;> exact .inr ⟨_, rfl, by constructor <;> simp⟩
  | unforjable tx => exact .inr ⟨_, rfl, by constructor <;> simp⟩
  | accAuth a => exact .inr ⟨_, rfl, by constructor <;> simp⟩
  | failedAG f => simp at he
  | error err => exact .inl ⟨err, rfl⟩
  | verificationEnded => simp at he

/-- The end of a round returns when the round selected nothing: a selection of the selected txs
and the discarded and non-selected ones, once the fee loop has succeeded; it starts a new round
on the txs not selected otherwise. -/
theorem handleEvent_verificationEnded (att : Attempt L1Tx) :
    (att.iteSelectedTxs.length = 0 ∧
      ∃ res, handleEvent env n att .verificationEnded = .inr (.ret res) ∧
        ∀ sel, res = .ok sel → sel.selectedTxs = att.selectedTxs ∧
          sel.discardedTxs = att.discardedTxs ++ att.nonSelectedTxs ∧
          (distributeAccumulatedFees env.localAccountsDB (env.feesOrder n) (env.accumulatedFees n)
            (env.accounts n)).2 = .ok ()) ∨
    (att.iteSelectedTxs.length ≠ 0 ∧ handleEvent env n att .verificationEnded =
      .inr (.nextRound { att with
        iteSelectedTxs := [], selectableTxs := att.nonSelectedTxs, nonSelectedTxs := [] })) := by
  rw [handleEvent]
  dsimp only
  split_ifs with h
  · refine .inl ⟨h, ?_⟩
    cases (distributeAccumulatedFees env.localAccountsDB (env.feesOrder n) (env.accumulatedFees n)
      (env.accounts n)).2 with
    | error err => exact ⟨_, rfl, fun _ h => nomatch h⟩
    | ok u =>
      dsimp only
      cases env.makeCheckpoint n with
      | error err => exact ⟨_, rfl, fun _ h => nomatch h⟩
      | ok u => exact ⟨_, rfl, fun _ h => by cases h; exact ⟨rfl, rfl, rfl⟩⟩
  · exact .inr ⟨h, rfl⟩

/-- A failed group restarts the selection, unless resetting the state DB fails. -/
theorem handleEvent_failedAG (att : Attempt L1Tx) (f : FailedAtomicGroup) :
    (∃ err, handleEvent env n att (.failedAG f) = .inr (.ret (.error err))) ∨
      handleEvent env n att (.failedAG f) = .inr (.restart f) := by
  rw [handleEvent]
  cases env.resetDB n with
  | error err => exact .inl ⟨err, rfl⟩
  | ok u => exact .inr rfl

theorem handleEvents_singleton {att : Attempt L1Tx} {e : VerifierEvent L1Tx} {r : RoundEnd L1Tx}
    (h : handleEvent env n att e = .inr r) : handleEvents env n att [e] = some r := by
  rw [handleEvents, h]

/-- The events before a round's end either make the loop return an error, or leave it with the
same input, the txs they carry recorded. -/
theorem handleEvents_append {body : List (VerifierEvent L1Tx)} (hb : ∀ e ∈ body, e.inRound = true)
    (rest : List (VerifierEvent L1Tx)) (att : Attempt L1Tx) :
    (∃ err, handleEvents env n att (body ++ rest) = some (.ret (.error err))) ∨
      ∃ att', handleEvents env n att (body ++ rest) = handleEvents env n att' rest ∧
        att.Received att' body := by
  induction body generalizing att with
  | nil => exact .inr ⟨att, rfl, .nil att⟩
  | cons e body ih =>
    rcases handleEvent_inRound env n (hb e (List.mem_cons_self e body)) att with
      ⟨err, h⟩ | ⟨att₁, h, h₁⟩
    · exact .inl ⟨err, by rw [List.cons_append, handleEvents, h]⟩
    · rcases ih (fun e' he' => hb e' (List.mem_cons_of_mem e he')) att₁ with
        ⟨err, h'⟩ | ⟨att', h', h₂⟩
      · exact .inl ⟨err, by rw [List.cons_append, handleEvents, h]; exact h'⟩
      · exact .inr ⟨att', by rw [List.cons_append, handleEvents, h]; exact h', h₁.cons h₂⟩

/-- The ends a round from `att` may reach: a result that holds the txs `att` held; a restart on
the group of an atomic tx of its input; or a new round, fresh, on fewer txs, each a tx of its
input, the attempt holding the same txs.  Txs are compared up to the reasons the verifier writes
into them. -/
inductive RoundEnd.Valid (att : Attempt L1Tx) : RoundEnd L1Tx → Prop
  | ret {res : Except String (Selection L1Tx)} :
    (∀ sel, res = .ok sel → ((sel.selectedTxs ++ sel.discardedTxs).map PoolL2Tx.erase).Perm
      (att.heldTxs.map PoolL2Tx.erase)) →
    RoundEnd.Valid att (.ret res)
  | restart {f : FailedAtomicGroup} : f.id ≠ emptyAtomicGroupID →
    (∃ tx ∈ att.selectableTxs, tx.atomicGroupID = f.id) → RoundEnd.Valid att (.restart f)
  | nextRound {att' : Attempt L1Tx} : att'.Fresh →
    att'.selectableTxs.length < att.selectableTxs.length →
    (∀ tx ∈ att'.selectableTxs, ∃ t ∈ att.selectableTxs, t.erase = tx.erase) →
    (att'.heldTxs.map PoolL2Tx.erase).Perm (att.heldTxs.map PoolL2Tx.erase) →
    RoundEnd.Valid att (.nextRound att')

/-- A round that sorted its whole input holds the same txs, up to their reasons: the selected
ones, the discarded and unforjable ones, and the non-selected ones it hands on. -/
theorem heldTxs_perm_of_received {att att' : Attempt L1Tx} {body : List (VerifierEvent L1Tx)}
    (hfresh : att.Fresh) (hrec : att.Received att' body)
    (hperm : ((body.filterMap VerifierEvent.classified?).map PoolL2Tx.erase).Perm
      (att.selectableTxs.map PoolL2Tx.erase)) :
    ((att'.selectedTxs ++ att'.discardedTxs ++ att'.nonSelectedTxs).map PoolL2Tx.erase).Perm
      (att.heldTxs.map PoolL2Tx.erase) := by
  have hsorted := (((filterMap_classified_perm body).map PoolL2Tx.erase).symm.trans hperm).count_eq
  rw [hrec.selected, hrec.discarded, hrec.nonSelected, hfresh.1, List.nil_append]
  refine List.perm_iff_count.2 fun a => ?_
  have := hsorted a
  simp only [Attempt.heldTxs, List.map_append, List.count_append] at this ⊢
  omega

/-- **One round** ends in one of the ends `RoundEnd.Valid` allows. -/
theorem handleEvents_round {att : Attempt L1Tx} {events : List (VerifierEvent L1Tx)}
    (hc : VerifierContract att.selectableTxs events) (hfresh : att.Fresh) :
    ∃ roundEnd, handleEvents env n att events = some roundEnd ∧ RoundEnd.Valid att roundEnd := by
  rcases hc with ⟨body, rfl, hb, hperm⟩ | ⟨body, f, rfl, hb, hf, htx⟩
  · rcases handleEvents_append env n hb [.verificationEnded] att with
      ⟨err, h⟩ | ⟨att', h, hrec⟩
    · exact ⟨_, h, .ret fun _ h => nomatch h⟩
    have hheld := heldTxs_perm_of_received hfresh hrec hperm
    rw [h]
    rcases handleEvent_verificationEnded env n att' with ⟨-, res, hend, hres⟩ | ⟨hlen, hend⟩
    · refine ⟨_, handleEvents_singleton env n hend, .ret fun sel hsel => ?_⟩
      rw [(hres sel hsel).1, (hres sel hsel).2.1, ← List.append_assoc]
      exact hheld
    refine ⟨_, handleEvents_singleton env n hend, .nextRound ⟨rfl, rfl⟩ ?_ (fun tx htx => ?_) hheld⟩
    · have hcount :=
        (((filterMap_classified_perm body).map PoolL2Tx.erase).symm.trans hperm).length_eq
      rw [hrec.iteSelected, hfresh.2, List.nil_append] at hlen
      simp only [List.length_map, List.length_append] at hcount
      show att'.nonSelectedTxs.length < att.selectableTxs.length
      rw [hrec.nonSelected, hfresh.1, List.nil_append]
      omega
    · replace htx : tx ∈ att'.nonSelectedTxs := htx
      rw [hrec.nonSelected, hfresh.1, List.nil_append] at htx
      exact List.mem_map.1 (hperm.subset (((filterMap_classified_perm body).map _).symm.subset
        (List.mem_map_of_mem _ (List.mem_append_left _ (List.mem_append_left _ htx)))))
  · rcases handleEvents_append env n hb [.failedAG f] att with ⟨err, h⟩ | ⟨att', h, -⟩
    · exact ⟨_, h, .ret fun _ h => nomatch h⟩
    rw [h]
    rcases handleEvent_failedAG env n att' f with ⟨err, hend⟩ | hend
    · exact ⟨_, handleEvents_singleton env n hend, .ret fun _ h => nomatch h⟩
    · exact ⟨_, handleEvents_singleton env n hend, .restart hf htx⟩

end Round

/-! ### The attempts -/

section Attempts

variable {L1Tx S : Type} (env : SelectionEnv L1Tx S)

/-- The verifier keeps its contract on every input a round can pass it: a list of txs of `pool`,
each at most once, up to the reasons the verifier writes into them. -/
def SelectionEnv.VerifierKeepsContract (env : SelectionEnv L1Tx S) (pool : List PoolL2Tx) :
    Prop :=
  ∀ n round input, (input.map PoolL2Tx.erase).Subperm (pool.map PoolL2Tx.erase) →
    VerifierContract input (env.verify n round input)

/-- An attempt that holds the pool passes its verifier txs of the pool. -/
theorem Attempt.selectable_subperm {att : Attempt L1Tx} {pool : List PoolL2Tx}
    (h : (att.heldTxs.map PoolL2Tx.erase).Perm (pool.map PoolL2Tx.erase)) :
    (att.selectableTxs.map PoolL2Tx.erase).Subperm (pool.map PoolL2Tx.erase) :=
  (((List.sublist_append_right _ _).map _).subperm).trans h.subperm

/-- **The rounds of an attempt**: on a list of `m` txs, `m + 1` rounds of fuel suffice; an
attempt that returns a selection returns the txs it held, up to their reasons, and one that
restarts does so on the group of an atomic tx of its list. -/
theorem runRounds_spec {pool : List PoolL2Tx} (hv : env.VerifierKeepsContract pool) (n : ℕ) :
    ∀ (fuel round : ℕ) (att : Attempt L1Tx), att.Fresh → att.selectableTxs.length < fuel →
      (att.heldTxs.map PoolL2Tx.erase).Perm (pool.map PoolL2Tx.erase) →
      ∃ e rounds, runRounds env n fuel round att = some (e, rounds) ∧
        rounds ≤ att.selectableTxs.length + 1 ∧
        (∀ sel, e = .inl (.ok sel) → ((sel.selectedTxs ++ sel.discardedTxs).map PoolL2Tx.erase).Perm
          (att.heldTxs.map PoolL2Tx.erase)) ∧
        ∀ f, e = .inr f → f.id ≠ emptyAtomicGroupID ∧
          ∃ tx ∈ att.selectableTxs, tx.atomicGroupID = f.id := by
  intro fuel
  induction fuel with
  | zero => intro _ _ _ h; exact absurd h (Nat.not_lt_zero _)
  | succ fuel ih =>
    intro round att hfresh hlen hheld0
    obtain ⟨roundEnd, hround, hvalid⟩ :=
      handleEvents_round env n (hv n round _ (Attempt.selectable_subperm hheld0)) hfresh
    cases hvalid with
    | ret hres =>
      exact ⟨_, 1, by rw [runRounds, hround], by omega, fun sel h => hres sel (Sum.inl.inj h),
        fun _ h => Sum.noConfusion h⟩
    | restart hf htx =>
      exact ⟨_, 1, by rw [runRounds, hround], by omega, fun _ h => Sum.noConfusion h,
        fun _ h => Sum.inr.inj h ▸ ⟨hf, htx⟩⟩
    | @nextRound att' hfresh' hlt hsub hheld =>
      obtain ⟨e, rounds, hrun, hle, hok, hrestart⟩ :=
        ih (round + 1) att' hfresh' (by omega) (hheld.trans hheld0)
      refine ⟨e, rounds + 1, by rw [runRounds, hround]; simp [hrun], by omega,
        fun sel h => (hok sel h).trans hheld, fun f hef => ?_⟩
      obtain ⟨hf, tx, htx, hid⟩ := hrestart f hef
      obtain ⟨t, ht, hte⟩ := hsub tx htx
      exact ⟨hf, t, ht, by rw [← hid, ← PoolL2Tx.atomicGroupID_erase, hte, PoolL2Tx.atomicGroupID_erase]⟩

/-- What `START_SELECTION` can do: fail; or, the L1 user txs processed and the pool read, return a
selection of nothing when the prepared list is empty, or start an attempt on that list. -/
theorem startSelection_cases (n : ℕ) (failed : GoMap AtomicGroupID FailedAtomicGroup) :
    (∃ err, startSelection env n failed = .inr (.error err)) ∨
      ∃ pool, env.getPendingTxs = .ok pool ∧ (∀ tx ∈ env.l1UserTxs, env.processL1Tx n tx = .ok ()) ∧
        ((prepareSelection env.k (env.runtime n) pool failed).1 = [] ∧
          startSelection env n failed = .inr (.ok ⟨[], [], env.l1UserTxs, [], [],
            (prepareSelection env.k (env.runtime n) pool failed).2⟩) ∨
        startSelection env n failed = .inl ⟨(prepareSelection env.k (env.runtime n) pool failed).1,
          (prepareSelection env.k (env.runtime n) pool failed).2, [], [], [], [], [], [], ∅⟩) := by
  unfold startSelection
  cases hf : env.l1UserTxs.forM (env.processL1Tx n) with
  | error err => exact .inl ⟨err, rfl⟩
  | ok u =>
    cases env.getPendingTxs with
    | error err => exact .inl ⟨err, rfl⟩
    | ok pool =>
      dsimp only
      split_ifs with hempty
      · cases env.makeCheckpoint n with
        | error err => exact .inl ⟨err, rfl⟩
        | ok u => exact .inr ⟨pool, rfl, forM_eq_ok.1 hf, .inl ⟨List.length_eq_zero.1 hempty, rfl⟩⟩
      · exact .inr ⟨pool, rfl, forM_eq_ok.1 hf, .inr rfl⟩

/-- `START_SELECTION` returns a selection of the pool's txs, or an error; or starts an attempt
on a list of txs of the pool whose groups have not failed, holding the pool's txs. -/
theorem startSelection_spec {pool : List PoolL2Tx} (hpool : env.getPendingTxs = .ok pool) (n : ℕ)
    (failed : GoMap AtomicGroupID FailedAtomicGroup) :
    (∃ res, startSelection env n failed = .inr res ∧ ∀ sel, res = .ok sel →
      ((sel.selectedTxs ++ sel.discardedTxs).map PoolL2Tx.erase).Perm (pool.map PoolL2Tx.erase)) ∨
      ∃ att, startSelection env n failed = .inl att ∧ att.Fresh ∧
        att.selectableTxs.length ≤ pool.length ∧
        (∀ tx ∈ att.selectableTxs, tx ∈ pool ∧ survivesFailed failed tx = true) ∧
        (att.heldTxs.map PoolL2Tx.erase).Perm (pool.map PoolL2Tx.erase) := by
  have hperm := prepareSelection_perm env.k (env.runtime n) pool failed
  rcases startSelection_cases env n failed with ⟨err, h⟩ | ⟨pool', hp, -, ⟨hempty, h⟩ | h⟩
  · exact .inl ⟨_, h, fun _ h => nomatch h⟩
  all_goals obtain rfl : pool' = pool := Except.ok.inj (hp.symm.trans hpool)
  · refine .inl ⟨_, h, fun _ h => ?_⟩
    cases h
    rwa [hempty, List.nil_append] at hperm
  · refine .inr ⟨_, h, ⟨rfl, rfl⟩, length_prepareSelection_le _ _ _ _,
      fun tx htx => mem_prepareSelection _ _ _ _ htx, ?_⟩
    rw [Attempt.heldTxs, List.nil_append]
    exact (List.perm_append_comm.map _).trans hperm

/-- The pool's groups that have not failed. -/
def openGroups (pool : List PoolL2Tx) (failed : GoMap AtomicGroupID FailedAtomicGroup) :
    List AtomicGroupID :=
  (atomicGroupIDs pool).filter fun g => (failed.lookup g).isNone

/-- Failing an open group of the pool closes it. -/
theorem length_openGroups_insert {pool : List PoolL2Tx}
    {failed : GoMap AtomicGroupID FailedAtomicGroup} {f : FailedAtomicGroup}
    (hg : f.id ∈ atomicGroupIDs pool) (hopen : (failed.lookup f.id).isNone = true) :
    (openGroups pool (failed.insert f.id f)).length < (openGroups pool failed).length := by
  have hsub : (openGroups pool (failed.insert f.id f)).Sublist (openGroups pool failed) :=
    List.monotone_filter_right _ fun g hg' => by
      by_cases h : g = f.id
      · subst h; simp at hg'
      · rwa [AList.lookup_insert_ne h] at hg'
  have hin : f.id ∈ openGroups pool failed := List.mem_filter.2 ⟨hg, hopen⟩
  have hout : f.id ∉ openGroups pool (failed.insert f.id f) := fun h => by
    simp [openGroups] at h
  refine lt_of_le_of_ne hsub.length_le fun heq => hout ?_
  rwa [hsub.eq_of_length heq]

/-- A restart on the group of a tx of an attempt's list fails an open group. -/
theorem restart_closes_group {pool : List PoolL2Tx} {failed : GoMap AtomicGroupID FailedAtomicGroup}
    {f : FailedAtomicGroup} {tx : PoolL2Tx} (hf : f.id ≠ emptyAtomicGroupID)
    (hmem : tx ∈ pool ∧ survivesFailed failed tx = true) (hid : tx.atomicGroupID = f.id) :
    (openGroups pool (failed.insert f.id f)).length < (openGroups pool failed).length := by
  have hat : tx.isAtomic = true := isAtomic_iff.2 (hid ▸ hf)
  refine length_openGroups_insert ?_ ?_
  · exact List.mem_dedup.2 (List.mem_map.2 ⟨tx, List.mem_filter.2 ⟨hmem.1, hat⟩, hid⟩)
  · have h := hmem.2
    simp only [survivesFailed, hat, Bool.not_true, Bool.false_or] at h
    rwa [← hid]

/-- Before the first restart no group has failed. -/
theorem openGroups_empty (pool : List PoolL2Tx) : openGroups pool ∅ = atomicGroupIDs pool :=
  List.filter_eq_self.2 fun _ _ => rfl

/-- **The attempts**: with more fuel than open groups, the selection returns, after at most
one restart per open group, each attempt within its list's length plus one rounds; a selection
it returns holds every tx of the pool once, up to the annotations. -/
theorem runAttempts_spec {pool : List PoolL2Tx} (hpool : env.getPendingTxs = .ok pool)
    (hv : env.VerifierKeepsContract pool) {roundFuel : ℕ} (hround : pool.length < roundFuel) :
    ∀ (fuel n : ℕ) (failed : GoMap AtomicGroupID FailedAtomicGroup),
      (openGroups pool failed).length < fuel →
      ∃ run, runAttempts env roundFuel fuel n failed = some run ∧
        run.restarts ≤ (openGroups pool failed).length ∧ (∀ p ∈ run.rounds, p.2 ≤ p.1 + 1) ∧
        ∀ sel, run.result = .ok sel →
          ((sel.selectedTxs ++ sel.discardedTxs).map PoolL2Tx.erase).Perm (pool.map PoolL2Tx.erase) := by
  intro fuel
  induction fuel with
  | zero => intro _ _ h; exact absurd h (Nat.not_lt_zero _)
  | succ fuel ih =>
    intro n failed hfuel
    rcases startSelection_spec env hpool n failed with
      ⟨res, hstart, hres⟩ | ⟨att, hstart, hfresh, hlen, hmem, hheld⟩
    · exact ⟨_, by rw [runAttempts, hstart], Nat.zero_le _, by simp, hres⟩
    obtain ⟨e, rounds, hrun, hle, hok, hrestart⟩ :=
      runRounds_spec env hv n roundFuel 0 att hfresh (by omega) hheld
    cases e with
    | inl res =>
      exact ⟨⟨res, 0, [(att.selectableTxs.length, rounds)]⟩,
        by rw [runAttempts, hstart]; dsimp only; rw [hrun], Nat.zero_le _, List.forall_mem_singleton.2 hle,
        fun sel h => (hok sel (congrArg Sum.inl h)).trans hheld⟩
    | inr f =>
      obtain ⟨hf, tx, htx, hid⟩ := hrestart f rfl
      have hlt := restart_closes_group hf (hmem tx htx) hid
      obtain ⟨run, hrun', hrestarts, hrounds, hsel⟩ := ih (n + 1) (failed.insert f.id f) (by omega)
      refine ⟨⟨run.result, run.restarts + 1, (att.selectableTxs.length, rounds) :: run.rounds⟩,
        by rw [runAttempts, hstart]; dsimp only; rw [hrun]; dsimp only; rw [hrun']; rfl,
        by dsimp only; omega, List.forall_mem_cons.2 ⟨hle, hrounds⟩, hsel⟩

/-- **The selection always returns.**  When the pool is one snapshot and the verifier keeps its
contract, `getL1L2TxSelection` returns with one attempt more than the pool has distinct atomic
groups and one round more than the pool has txs; it restarts at most once per group, and each
attempt runs at most its list's length plus one rounds. -/
theorem getL1L2TxSelection_returns {pool : List PoolL2Tx} (hpool : env.getPendingTxs = .ok pool)
    (hv : env.VerifierKeepsContract pool) {restartFuel roundFuel : ℕ}
    (hrestart : (atomicGroupIDs pool).length < restartFuel) (hround : pool.length < roundFuel) :
    ∃ run, getL1L2TxSelection env restartFuel roundFuel = some run ∧
      run.restarts ≤ (atomicGroupIDs pool).length ∧ ∀ p ∈ run.rounds, p.2 ≤ p.1 + 1 := by
  obtain ⟨run, hrun, hrestarts, hrounds, -⟩ :=
    runAttempts_spec env hpool hv hround restartFuel 0 ∅ (by rwa [openGroups_empty])
  exact ⟨run, hrun, openGroups_empty pool ▸ hrestarts, hrounds⟩

/-- **Every pending tx is selected or discarded, once.**  Under the same assumptions the
selection returns, and a selection it returns, its selected and its discarded txs together, is
the pool: no tx is lost or duplicated, up to the reasons the filters and the verifier write. -/
theorem getL1L2TxSelection_accounts {pool : List PoolL2Tx} (hpool : env.getPendingTxs = .ok pool)
    (hv : env.VerifierKeepsContract pool) {restartFuel roundFuel : ℕ}
    (hrestart : (atomicGroupIDs pool).length < restartFuel) (hround : pool.length < roundFuel) :
    ∃ run, getL1L2TxSelection env restartFuel roundFuel = some run ∧ ∀ sel, run.result = .ok sel →
      ((sel.selectedTxs ++ sel.discardedTxs).map PoolL2Tx.erase).Perm (pool.map PoolL2Tx.erase) := by
  obtain ⟨run, hrun, -, -, hsel⟩ :=
    runAttempts_spec env hpool hv hround restartFuel 0 ∅ (by rwa [openGroups_empty])
  exact ⟨run, hrun, hsel⟩

end Attempts

/-- A verifier that reports as failed the group of the first atomic tx it is given, and selects
everything when it is given none, writing into each tx it selects that it was. -/
def failFirstGroup (s : List PoolL2Tx) : List (VerifierEvent Unit) :=
  match s.find? PoolL2Tx.isAtomic with
  | some tx => [.failedAG ⟨tx.atomicGroupID, tx.txID, ⟨"", 0, ""⟩⟩]
  | none => s.map (fun tx => .selected { tx with info := "selected" }) ++ [.verificationEnded]

theorem failFirstGroup_contract (s : List PoolL2Tx) : VerifierContract s (failFirstGroup s) := by
  unfold failFirstGroup
  cases h : s.find? PoolL2Tx.isAtomic with
  | some tx =>
    exact .inr ⟨[], _, rfl, by simp, isAtomic_iff.1 (List.find?_some h), tx,
      List.mem_of_find?_eq_some h, rfl⟩
  | none =>
    refine .inl ⟨_, rfl, by simp [VerifierEvent.inRound], ?_⟩
    have hsel : ∀ l : List PoolL2Tx, ((l.map fun tx => (.selected { tx with info := "selected" } :
        VerifierEvent Unit)).filterMap VerifierEvent.classified?).map PoolL2Tx.erase =
          l.map PoolL2Tx.erase := fun l => by
      induction l with
      | nil => rfl
      | cons tx l ih => exact congrArg (tx.erase :: ·) ih
    simp only [List.filterMap_append, List.filterMap_cons, VerifierEvent.classified?, List.filterMap_nil,
      List.append_nil, hsel, List.Perm.refl]

/-- The selector on `examplePool`, whose verifier fails the pool's one group and then selects
the rest; every state-DB operation succeeds, and no fee is accumulated. -/
def sampleEnv : SelectionEnv Unit (GoMap Idx Account) where
  k := sampleSelectorConsts
  runtime _ := inOrder
  l1UserTxs := []
  processL1Tx _ _ := .ok ()
  getPendingTxs := .ok examplePool
  verify _ _ := failFirstGroup
  getAccount _ _ := .ok ⟨0, 0, 0, emptyBJJComp⟩
  getCoordIdx _ _ := .ok 0
  resetDB _ := .ok ()
  localAccountsDB := mapDB
  accounts _ := ∅
  accumulatedFees _ := ∅
  feesOrder _ := .id _
  makeCheckpoint _ := .ok ()

theorem sampleEnv_keepsContract : sampleEnv.VerifierKeepsContract examplePool :=
  fun _ _ s _ => failFirstGroup_contract s

theorem sampleEnv_returns :
    sampleEnv.getPendingTxs = .ok examplePool ∧ sampleEnv.VerifierKeepsContract examplePool ∧
      (atomicGroupIDs examplePool).length < 2 ∧
      examplePool.length < 4 ∧
      ∃ run, getL1L2TxSelection sampleEnv 2 4 = some run ∧
        run.restarts ≤ (atomicGroupIDs examplePool).length ∧ ∀ p ∈ run.rounds, p.2 ≤ p.1 + 1 :=
  ⟨rfl, sampleEnv_keepsContract, by decide, by decide,
    getL1L2TxSelection_returns sampleEnv rfl sampleEnv_keepsContract (by decide) (by decide)⟩

theorem sampleEnv_accounts :
    sampleEnv.getPendingTxs = .ok examplePool ∧ sampleEnv.VerifierKeepsContract examplePool ∧
      (atomicGroupIDs examplePool).length < 2 ∧
      examplePool.length < 4 ∧
      ∃ run, getL1L2TxSelection sampleEnv 2 4 = some run ∧ ∀ sel, run.result = .ok sel →
        ((sel.selectedTxs ++ sel.discardedTxs).map PoolL2Tx.erase).Perm
          (examplePool.map PoolL2Tx.erase) :=
  ⟨rfl, sampleEnv_keepsContract, by decide, by decide,
    getL1L2TxSelection_accounts sampleEnv rfl sampleEnv_keepsContract (by decide) (by decide)⟩

end TxSelector

end HermezNode
