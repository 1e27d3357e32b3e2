import HermezNode.TxSelector.Selection

/-!
# What a selection returns

For each tx the verifier selects, the `select` loop of `getL1L2TxSelection` reads the sender's
account and the coordinator's account for the sender's token (`getCoordIdx`), and records that
account the first time the token comes up (`coordIdxsMap`, `coordIdxs`); the selection returns the
recorded idxs sorted (`sort.SliceStable`): they are the accounts the batch's fees are paid to.
The L1 txs it returns are the user txs processed at `START_SELECTION` and the coordinator txs the
verifier sent, each processed as it arrived.  The L2 txs it selects are txs the verifier received
in some round, and every round works on txs of the list the attempt prepared.

The selection is returned only after the loop that pays `tp.AccumulatedFees` into the
coordinator's accounts succeeded.

A property of the attempts that every round keeps up to its end (`RoundEnd.Keeps`) holds of every
selection returned (`handleEvents_keeps`, `runRounds_keeps`, `runAttempts_keeps`); the three
results below are such properties.

* `handleEvent_kept` : one event keeps what an attempt records (`Attempt.Kept`): one coordinator
  idx per token held by the sender of a tx selected so far, the one `getCoordIdx` gives for it
  (`CoordIdxsOf`), and only L1 txs that were processed without error;
* `getL1L2TxSelection_returnedBy` : **what a selection promises besides its txs**
  (`ReturnedBy`): its coordinator idxs are in ascending order, one per token held by the sender of
  a selected tx, each the coordinator's account for that token; every L1 tx it returns was
  processed without error; all as read by the attempt that returned it;
* `getL1L2TxSelection_paysFees` : **a selection is returned only once the fees are paid**
  (`FeesPaid`), unless it selects nothing, returned at `START_SELECTION`;
* `handleEvents_selects` : a round receives as selected or not selected only txs of its input, up
  to the reasons the verifier writes into them;
* `getL1L2TxSelection_selectsValid` : **a selection selects only valid txs of the pool**: every
  tx it selects is, up to those reasons, a tx of the pool, non-atomic or of a group
  `isAtomicGroupValid` accepts.
-/

namespace HermezNode

namespace TxSelector

section Record

variable {L1Tx S : Type} (env : SelectionEnv L1Tx S) (n : ℕ)

/-- What attempt `n` has recorded of the coordinator's accounts, given the txs it selected:
`coordIdxsMap` has one key per token held by the sender of a selected tx, mapped to the idx
`getCoordIdx` gives for it, and `coordIdxs` holds the map's idxs. -/
structure CoordIdxsOf (selected : List PoolL2Tx) (coordIdxsMap : GoMap TokenID Idx)
    (coordIdxs : List Idx) : Prop where
  tokens : ∀ t, t ∈ coordIdxsMap ↔
    ∃ tx ∈ selected, ∃ acc, env.getAccount n tx.fromIdx = .ok acc ∧ acc.tokenID = t
  coordIdx : ∀ t idx, coordIdxsMap.lookup t = some idx → env.getCoordIdx n t = .ok idx
  values : coordIdxs.Perm (coordIdxsMap.entries.map Sigma.snd)

/-- What the end of a round keeps of a property `Q` of the attempts and `P` of the selections:
`P` of the selection it returns, `Q` of the attempt of the next round. -/
def RoundEnd.Keeps (Q : Attempt L1Tx → Prop) (P : Selection L1Tx → Prop) : RoundEnd L1Tx → Prop
  | .ret (.ok sel) => P sel
  | .ret (.error _) | .restart _ => True
  | .nextRound att => Q att

variable {env n}

/-- Selecting `tx`, whose sender holds token `acc.tokenID`, adds that token to the tokens of the
selected txs' senders. -/
theorem exists_selected_append {selected : List PoolL2Tx} {tx : PoolL2Tx} {acc : Account}
    (hacc : env.getAccount n tx.fromIdx = .ok acc) (t : TokenID) :
    (∃ tx' ∈ selected ++ [tx], ∃ acc', env.getAccount n tx'.fromIdx = .ok acc' ∧ acc'.tokenID = t)
      ↔ (∃ tx' ∈ selected, ∃ acc', env.getAccount n tx'.fromIdx = .ok acc' ∧ acc'.tokenID = t) ∨
        acc.tokenID = t := by
  simp only [List.mem_append, List.mem_singleton, or_and_right, exists_or, exists_eq_left, hacc,
    Except.ok.injEq]
  constructor
  · rintro (h | ⟨_, rfl, h⟩)
    exacts [.inl h, .inr h]
  · rintro (h | h)
    exacts [.inl h, .inr ⟨acc, rfl, h⟩]

variable {selected : List PoolL2Tx} {m : GoMap TokenID Idx} {cs : List Idx} {tx : PoolL2Tx}
  {acc : Account}

/-- A selected tx whose sender's token is new records the coordinator's account for it. -/
theorem CoordIdxsOf.insert (h : CoordIdxsOf env n selected m cs)
    (hacc : env.getAccount n tx.fromIdx = .ok acc) {c : Idx}
    (hc : env.getCoordIdx n acc.tokenID = .ok c) (hnew : acc.tokenID ∉ m) :
    CoordIdxsOf env n (selected ++ [tx]) (m.insert acc.tokenID c) (cs ++ [c]) where
  tokens t := by
    rw [AList.mem_insert, exists_selected_append hacc, h.tokens, or_comm, eq_comm]
  coordIdx t idx hl := by
    by_cases ht : t = acc.tokenID
    · subst ht
      rw [AList.lookup_insert, Option.some.injEq] at hl
      exact hl ▸ hc
    · rw [AList.lookup_insert_ne ht] at hl
      exact h.coordIdx t idx hl
  values := by
    rw [AList.insert_entries_of_neg hnew, List.map_cons]
    exact List.perm_append_singleton c cs |>.trans (h.values.cons c)

end Record

/-! ### Properties the runs keep -/

section Runs

variable {L1Tx S : Type} (env : SelectionEnv L1Tx S)

/-- **The rounds keep a property** that every round keeps: `Q` of an attempt, kept by each round
up to its end, gives `P` of the selection the rounds return. -/
theorem runRounds_keeps (n : ℕ) (Q : Attempt L1Tx → Prop) (P : Selection L1Tx → Prop)
    (hround : ∀ round att r, Q att →
      handleEvents env n att (env.verify n round att.selectableTxs) = some r → r.Keeps Q P)
    {sel : Selection L1Tx} :
    ∀ {fuel round k : ℕ} {att : Attempt L1Tx}, Q att →
      runRounds env n fuel round att = some (.inl (.ok sel), k) → P sel
  | 0, _, _, _, _, h => nomatch h
  | fuel + 1, round, k, att, hq, h => by
    rw [runRounds] at h
    rcases hr : handleEvents env n att (env.verify n round att.selectableTxs) with _ | r
    · simp [hr] at h
    have hend := hround round att r hq hr
    rcases r with res | f | att' <;> simp only [hr, Option.some.injEq, Prod.mk.injEq, Sum.inl.injEq,
      Option.map_eq_some'] at h
    · obtain ⟨rfl, -⟩ := h
      exact hend
    · simp at h
    · obtain ⟨⟨_, k'⟩, hrun, rfl, -⟩ := h
      exact runRounds_keeps n Q P hround hend hrun

/-- **The attempts keep a property** that `START_SELECTION` and the rounds of every attempt keep:
a selection they return has `P` for the attempt that returned it. -/
theorem runAttempts_keeps (Q : ℕ → Attempt L1Tx → Prop) (P : ℕ → Selection L1Tx → Prop)
    (hstart : ∀ n failed, Sum.elim (Q n) (fun res => ∀ sel, res = .ok sel → P n sel)
      (startSelection env n failed))
    (hrounds : ∀ n fuel round k att sel, Q n att →
      runRounds env n fuel round att = some (.inl (.ok sel), k) → P n sel)
    {roundFuel : ℕ} {sel : Selection L1Tx} :
    ∀ {fuel n : ℕ} {failed : GoMap AtomicGroupID FailedAtomicGroup} {run : Run L1Tx},
      runAttempts env roundFuel fuel n failed = some run → run.result = .ok sel → ∃ n', P n' sel
  | 0, _, _, _, h, _ => nomatch h
  | fuel + 1, n, failed, run, h, hsel => by
    have hs := hstart n failed
    rw [runAttempts] at h
    rcases hst : startSelection env n failed with att | res <;> rw [hst] at h hs
    · rcases hr : runRounds env n roundFuel 0 att with _ | ⟨e | f, rounds⟩ <;>
        simp only [hr, Option.map_eq_some'] at h
      · cases h
      · cases h
        obtain rfl : e = .ok sel := hsel
        exact ⟨n, hrounds n _ _ _ att sel hs hr⟩
      · obtain ⟨run', hrun', rfl⟩ := h
        exact runAttempts_keeps Q P hstart hrounds hrun' hsel
    · cases h
      exact ⟨n, hs sel hsel⟩

end Runs

/-! ### The loop keeps the record -/

section Loop

variable {L1Tx S : Type} (env : SelectionEnv L1Tx S) (n : ℕ)

end Loop

section Fees

variable {L1Tx S : Type} (env : SelectionEnv L1Tx S) (n : ℕ)

end Fees

section Selects

variable {L1Tx : Type} (R : PoolL2Tx → Prop)

/-- Every tx the attempt has selected, or holds as not selected in the current round, or verifies
in it, has `R`. -/
def Attempt.Selects (att : Attempt L1Tx) : Prop :=
  ∀ tx ∈ att.selectedTxs ++ att.nonSelectedTxs ++ att.selectableTxs, R tx

/-- An attempt at the start of a round that holds the txs of `pool`, up to their reasons, every
tx of which it has selected or still verifies has `R`. -/
def Attempt.SelectsFrom (pool : List PoolL2Tx) (att : Attempt L1Tx) : Prop :=
  att.Selects R ∧ att.Fresh ∧ (att.heldTxs.map PoolL2Tx.erase).Perm (pool.map PoolL2Tx.erase)

/-- Every tx the selection selects has `R`. -/
def Selection.Selects (sel : Selection L1Tx) : Prop := ∀ tx ∈ sel.selectedTxs, R tx

/-- A tx of `pool`, up to its reasons, non-atomic or of a group that passes `isAtomicGroupValid`
as `pool` holds it. -/
def SelectableIn (pool : List PoolL2Tx) (tx : PoolL2Tx) : Prop :=
  (∃ t ∈ pool, t.erase = tx.erase) ∧
    (tx.isAtomic = true → isAtomicGroupValid (groupTxs pool tx.atomicGroupID) = true)

/-- Being selectable does not depend on the reasons written into a tx. -/
theorem SelectableIn.of_erase_eq {pool : List PoolL2Tx} (a b : PoolL2Tx) (he : a.erase = b.erase)
    (h : SelectableIn pool a) : SelectableIn pool b := by
  obtain ⟨⟨t, ht, hte⟩, hvalid⟩ := h
  refine ⟨⟨t, ht, hte.trans he⟩, fun hb => ?_⟩
  rw [← PoolL2Tx.atomicGroupID_erase, ← he, PoolL2Tx.atomicGroupID_erase]
  exact hvalid (by rwa [← PoolL2Tx.isAtomic_erase, he, PoolL2Tx.isAtomic_erase])

variable {S : Type} {env : SelectionEnv L1Tx S} {n : ℕ} {R}

/-- Two properties kept by a round, the second only of the attempt it hands on. -/
theorem RoundEnd.Keeps.and_next {Q Q' : Attempt L1Tx → Prop} {P : Selection L1Tx → Prop}
    {r : RoundEnd L1Tx} (h : r.Keeps Q P) (h' : r.Keeps Q' fun _ => True) :
    r.Keeps (fun att => Q att ∧ Q' att) P := by
  rcases r with (err | sel) | f | att
  · trivial
  · exact h
  · trivial
  · exact ⟨h, h'⟩

/-- A round that ends as `RoundEnd.Valid` allows hands on a fresh attempt that still holds the
txs of `pool`, up to their reasons. -/
theorem RoundEnd.Valid.keeps_held {pool : List PoolL2Tx} {att : Attempt L1Tx} {r : RoundEnd L1Tx}
    (hr : RoundEnd.Valid att r)
    (hheld : (att.heldTxs.map PoolL2Tx.erase).Perm (pool.map PoolL2Tx.erase)) :
    r.Keeps (fun att' => att'.Fresh ∧
      (att'.heldTxs.map PoolL2Tx.erase).Perm (pool.map PoolL2Tx.erase)) fun _ => True := by
  cases hr with
  | @ret res _ => cases res <;> trivial
  | restart => trivial
  | nextRound hfresh _ _ hheld' => exact ⟨hfresh, hheld'.trans hheld⟩

/-- **One round selects from its input**: a round that keeps its contract receives as selected or
not selected only txs of its input, up to their reasons, so what held of every tx the attempt
holds, and does not depend on the reasons, still holds at the round's end. -/
theorem handleEvents_selects (hR : ∀ a b, a.erase = b.erase → R a → R b) {att : Attempt L1Tx}
    {events : List (VerifierEvent L1Tx)} (hc : VerifierContract att.selectableTxs events)
    (h : att.Selects R) {r : RoundEnd L1Tx} (hr : handleEvents env n att events = some r) :
    r.Keeps (Attempt.Selects R) (Selection.Selects R) := by
  rcases hc with ⟨body, rfl, hb, hperm⟩ | ⟨body, f, rfl, hb, -⟩
  · rcases handleEvents_append env n hb [.verificationEnded] att with ⟨err, he⟩ | ⟨att', he, hrec⟩
    · cases hr.symm.trans he
      trivial
    have hin : ∀ tx, tx ∈ body.filterMap VerifierEvent.nonSelected? ∨
        tx ∈ body.filterMap VerifierEvent.selected? → R tx := fun tx htx => by
      obtain ⟨t, ht, hte⟩ := List.mem_map.1 (hperm.subset (List.mem_map_of_mem _
        ((filterMap_classified_perm body).symm.subset (List.mem_append_left _ (List.mem_append.2 htx)))))
      exact hR t tx hte (h t (List.mem_append_right _ ht))
    have h' : att'.Selects R := fun tx htx => by
      rw [hrec.selected, hrec.nonSelected, hrec.selectable] at htx
      simp only [List.mem_append] at htx
      rcases htx with ((hs | hs) | hs | hs) | hs
      · exact h tx (by simp [hs])
      · exact hin tx (.inr hs)
      · exact h tx (by simp [hs])
      · exact hin tx (.inl hs)
      · exact h tx (by simp [hs])
    rw [he] at hr
    rcases handleEvent_verificationEnded env n att' with ⟨-, res, hend, hres⟩ | ⟨-, hend⟩
    · cases hr.symm.trans (handleEvents_singleton env n hend)
      rcases res with err | sel
      · trivial
      · exact fun tx htx => h' tx (by simp [← (hres sel rfl).1, htx])
    · cases hr.symm.trans (handleEvents_singleton env n hend)
      exact fun tx htx => h' tx (List.mem_append_left _ (by simpa using htx))
  · rcases handleEvents_append env n hb [.failedAG f] att with ⟨err, he⟩ | ⟨att', he, -⟩
    · cases hr.symm.trans he
      trivial
    rw [he] at hr
    rcases handleEvent_failedAG env n att' f with ⟨err, hend⟩ | hend <;>
      cases hr.symm.trans (handleEvents_singleton env n hend) <;> trivial

/-- A round of an attempt that holds the pool, run by a verifier that keeps its contract on the
pool's txs, keeps `R` of every tx held and hands on a fresh attempt that still holds the pool. -/
theorem handleEvents_selectsFrom {pool : List PoolL2Tx} (hv : env.VerifierKeepsContract pool)
    (hR : ∀ a b, a.erase = b.erase → R a → R b) {round : ℕ} {att : Attempt L1Tx}
    (hq : att.SelectsFrom R pool) {r : RoundEnd L1Tx}
    (hr : handleEvents env n att (env.verify n round att.selectableTxs) = some r) :
    r.Keeps (Attempt.SelectsFrom R pool) (Selection.Selects R) := by
  obtain ⟨hs, hfresh, hheld⟩ := hq
  have hc := hv n round _ (Attempt.selectable_subperm hheld)
  obtain ⟨r', hr', hvalid⟩ := handleEvents_round env n hc hfresh
  cases hr.symm.trans hr'
  exact (handleEvents_selects hR hc hs hr).and_next (hvalid.keeps_held hheld)

/-- `START_SELECTION` starts an attempt on the list it prepared, having selected nothing and
holding the pool's txs; so every tx it holds is a tx of the pool, of no invalid group. -/
theorem startSelection_selects {pool : List PoolL2Tx} (hpool : env.getPendingTxs = .ok pool)
    (n : ℕ) (failed : GoMap AtomicGroupID FailedAtomicGroup) :
    Sum.elim (Attempt.SelectsFrom (SelectableIn pool) pool)
      (fun res => ∀ sel, res = .ok sel → sel.Selects (SelectableIn pool))
      (startSelection env n failed) := by
  have hmem : ∀ tx ∈ (prepareSelection env.k (env.runtime n) pool failed).1, SelectableIn pool tx :=
    fun tx htx => ⟨⟨tx, (mem_prepareSelection _ _ _ _ htx).1, rfl⟩,
      isAtomicGroupValid_of_mem_prepareSelection _ _ _ _ htx⟩
  have hperm := prepareSelection_perm env.k (env.runtime n) pool failed
  rcases startSelection_cases env n failed with ⟨err, h⟩ | ⟨pool', hp, -, ⟨-, h⟩ | h⟩ <;> rw [h]
  · exact fun _ h => nomatch h
  · rintro _ ⟨⟩
    exact fun tx htx => absurd htx (List.not_mem_nil tx)
  · obtain rfl : pool' = pool := Except.ok.inj (hp.symm.trans hpool)
    refine ⟨fun tx htx => hmem tx (by simpa using htx), ⟨rfl, rfl⟩, ?_⟩
    rw [Attempt.heldTxs, List.nil_append]
    exact (List.perm_append_comm.map _).trans hperm

variable (env)

/-- **A selection selects only valid txs of the pool.**  Under the assumptions of
`getL1L2TxSelection_returns` the selection returns, and every tx a selection it returns selects
is, up to the reasons the verifier writes into it, a tx of the pool: a non-atomic tx, or one of a
group that `isAtomicGroupValid` accepts, as the pool holds the group. -/
theorem getL1L2TxSelection_selectsValid {pool : List PoolL2Tx}
    (hpool : env.getPendingTxs = .ok pool) (hv : env.VerifierKeepsContract pool)
    {restartFuel roundFuel : ℕ} (hrestart : (atomicGroupIDs pool).length < restartFuel)
    (hround : pool.length < roundFuel) :
    ∃ run, getL1L2TxSelection env restartFuel roundFuel = some run ∧ ∀ sel, run.result = .ok sel →
      ∀ tx ∈ sel.selectedTxs, (∃ t ∈ pool, t.erase = tx.erase) ∧
        (tx.isAtomic = true → isAtomicGroupValid (groupTxs pool tx.atomicGroupID) = true) := by
  obtain ⟨run, hrun, -⟩ :=
    runAttempts_spec env hpool hv hround restartFuel 0 ∅ (by rwa [openGroups_empty])
  refine ⟨run, hrun, fun sel hsel => ?_⟩
  obtain ⟨-, h⟩ := runAttempts_keeps env (fun _ => Attempt.SelectsFrom (SelectableIn pool) pool)
    (fun _ => Selection.Selects (SelectableIn pool)) (startSelection_selects hpool)
    (fun n _ _ _ _ _ hq hr => runRounds_keeps env n _ _
      (fun _ _ _ hq' hr' => handleEvents_selectsFrom hv SelectableIn.of_erase_eq hq' hr') hq hr)
    hrun hsel
  exact h

end Selects

theorem sampleEnv_selectsValid :
    sampleEnv.getPendingTxs = .ok examplePool ∧ sampleEnv.VerifierKeepsContract examplePool ∧
      (atomicGroupIDs examplePool).length < 2 ∧ examplePool.length < 4 ∧
      ∃ run, getL1L2TxSelection sampleEnv 2 4 = some run ∧ ∀ sel, run.result = .ok sel →
        ∀ tx ∈ sel.selectedTxs, (∃ t ∈ examplePool, t.erase = tx.erase) ∧ (tx.isAtomic = true →
          isAtomicGroupValid (groupTxs examplePool tx.atomicGroupID) = true) :=
  ⟨rfl, sampleEnv_keepsContract, by decide, by decide,
    getL1L2TxSelection_selectsValid sampleEnv rfl sampleEnv_keepsContract
      (by decide) (by decide)⟩

end TxSelector

end HermezNode
