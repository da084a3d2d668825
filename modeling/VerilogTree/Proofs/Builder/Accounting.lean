import VerilogTree.Proofs.Builder.Release

/-!
# Accounts of attempts and failures

A construction whose parts fit together asks the ledger for one id, whatever becomes of it
afterwards, and nothing else asks for any. So the attempts since the last release tell how many ids
are live and which failures were noted: the limit serves the first attempts and turns all later
ones away.
-/

namespace VerilogTree

/-- Do the parts of a production fit together? -/
def Production.fits (p : Production) (s : Store) : Bool := (p.body s).isOk

/-- The id that a construction took, as its answer tells: the id of the new node, or the parent
under which a part of a released tree was refused. -/
def idTaken : Except Misuse (Option NodeRef) → Option Nat
  | .ok (some node) => some node.id
  | .error (.releasedLink _ parent) => some parent
  | _ => none

namespace Ledger

/-- A ledger that has not come to the end of all ids is full only by its limit. -/
theorem allocate_of_full {l : Ledger} (hmax : l.nextId ≤ maxId) (hfull : ¬ l.hasRoom) :
    ∃ limit, l.config.nodeLimit = some limit ∧ limit ≤ l.size ∧
      l.allocate = .error (.nodeLimitExceeded limit) := by
  cases hlimit : l.config.nodeLimit with
  | none => exact absurd ⟨by simp [hlimit], hmax⟩ hfull
  | some limit =>
      have hle : limit ≤ l.size := by
        refine Nat.le_of_not_lt fun hlt => hfull ⟨?_, hmax⟩
        simpa [hlimit] using hlt
      exact ⟨limit, rfl, hle, by simp [allocate, hlimit, hle]⟩

end Ledger

namespace Builder

/-! ## Attempts -/

/-- The answers to the attempts since the last release, after one more call. -/
def attempted (b : Builder) (earlier : List (Except Misuse (Option NodeRef))) :
    Call → List (Except Misuse (Option NodeRef))
  | .construct p =>
    if p.fits b.store then earlier ++ [(b.call (.construct p)).2] else earlier
  | .extend _ => earlier
  | .releaseAll => []

/-- The answers to the constructions since the last release of a run whose parts fitted together,
in order. The run starts with the answers `earlier`. -/
def attempts (b : Builder) (earlier : List (Except Misuse (Option NodeRef))) :
    List Call → List (Except Misuse (Option NodeRef))
  | [] => earlier
  | c :: rest => (b.call c).1.attempts (b.attempted earlier c) rest

/-- Parts that do not fit together change nothing. -/
theorem call_of_not_fits {b : Builder} {p : Production} (h : p.fits b.store = false) :
    (b.call (.construct p)).1 = b := by
  cases hbody : p.body b.store with
  | error misuse => rw [call, construct_of_error hbody]
  | ok body =>
      rw [Production.fits, hbody] at h
      cases h

/-- Parts that fit together take one id, also when one of them is refused afterwards. -/
theorem call_of_fits {b : Builder} {p : Production} (h : p.fits b.store = true) :
    (b.call (.construct p)).1.ledger.size = b.granted.ledger.size ∧
      (b.call (.construct p)).1.failures = b.granted.failures ∧
      idTaken (b.call (.construct p)).2 = some b.newId := by
  obtain ⟨_, hbody, -⟩ | ⟨body, _, -, hlink, heq⟩ | ⟨body, -, -, heq⟩ := b.construct_cases p
  · rw [Production.fits, hbody] at h
    cases h
  · obtain ⟨child, -, rfl⟩ := Ledger.linkAll_eq_error hlink
    rw [call, heq]
    exact ⟨(b.linkedLedger_linksOnly body).size, rfl, rfl⟩
  · rw [call, heq]
    exact ⟨b.constructed_size body, rfl, rfl⟩

theorem call_extend_size (b : Builder) (e : Extension) :
    (b.call (.extend e)).1.ledger.size = b.ledger.size ∧
      (b.call (.extend e)).1.failures = b.failures := by
  obtain ⟨-, heq⟩ | ⟨_, -, -, heq⟩ | ⟨-, -, heq⟩ := b.extend_cases e
  · rw [call, heq]
    exact ⟨rfl, rfl⟩
  · rw [call, heq]
    exact ⟨(b.extendedLedger_linksOnly e).size, rfl⟩
  · rw [call, heq]
    exact ⟨(b.extendedLedger_linksOnly e).size, rfl⟩

/-! ## The balance of a run -/

/-- How many of `n` attempts a limit serves. -/
def served (limit : Option Nat) (n : Nat) : Nat := limit.elim n (min n)

/-- The live ids and the failures are those of the attempts: the limit served the first of them,
and each of the others left one failure. -/
structure Balanced (limit : Option Nat) (b : Builder)
    (attempts : List (Except Misuse (Option NodeRef))) : Prop where
  limit_eq : b.ledger.config.nodeLimit = limit
  firstId_pos : 0 < b.ledger.firstId
  size_eq : b.ledger.size = served limit attempts.length
  failures_eq : b.failures = List.replicate (attempts.length - served limit attempts.length)
    (.nodeLimitExceeded (limit.getD 0))
  taken : ∀ k answer, attempts[k]? = some answer →
    ∃ id, idTaken answer = some id ∧ (id ≠ 0 ↔ ∀ l ∈ limit, k < l)

theorem balanced_new (store : Store) (config : LedgerConfig) :
    Balanced config.nodeLimit { store, ledger := { config } } [] where
  limit_eq := rfl
  firstId_pos := Nat.one_pos
  size_eq := by cases config.nodeLimit <;> simp [served, Ledger.size]
  failures_eq := by simp
  taken := by simp

namespace Balanced

variable {limit : Option Nat} {b b' : Builder}
  {attempts : List (Except Misuse (Option NodeRef))}

/-- A builder with the same count of ids and failures has the same balance. -/
theorem congr (h : Balanced limit b attempts) (hgrows : Ledger.Grows b.ledger b'.ledger)
    (hsize : b'.ledger.size = b.ledger.size) (hfailures : b'.failures = b.failures) :
    Balanced limit b' attempts where
  limit_eq := by rw [hgrows.config, h.limit_eq]
  firstId_pos := by rw [hgrows.firstId]; exact h.firstId_pos
  size_eq := hsize.trans h.size_eq
  failures_eq := hfailures.trans h.failures_eq
  taken := h.taken

theorem hasRoom_iff (h : Balanced limit b attempts) (hmax : b.ledger.nextId ≤ Ledger.maxId) :
    b.ledger.hasRoom ↔ ∀ l ∈ limit, attempts.length < l := by
  rw [Ledger.hasRoom, h.limit_eq, h.size_eq]
  cases limit with
  | none => simp [hmax]
  | some l =>
      simp only [served, Option.elim_some, Option.mem_def, Option.some.injEq, forall_eq', hmax,
        and_true]
      omega

theorem newId_ne_zero_iff (h : Balanced limit b attempts)
    (hmax : b.ledger.nextId ≤ Ledger.maxId) :
    b.newId ≠ 0 ↔ ∀ l ∈ limit, attempts.length < l := by
  rw [← h.hasRoom_iff hmax]
  refine ⟨hasRoom_of_newId, fun hroom => ?_⟩
  have hpos := h.firstId_pos
  rw [newId_of_hasRoom hroom, Ledger.nextId]
  omega

/-- The next id is granted, or the limit is noted as a failure. -/
theorem granted_eq (h : Balanced limit b attempts) (hmax : b.ledger.nextId ≤ Ledger.maxId) :
    b.granted.ledger.size = served limit (attempts.length + 1) ∧
      b.granted.failures = List.replicate (attempts.length + 1 - served limit (attempts.length + 1))
        (.nodeLimitExceeded (limit.getD 0)) := by
  have hsize := h.size_eq
  have hfailures := h.failures_eq
  by_cases hroom : b.ledger.hasRoom
  · have hserved : served limit (attempts.length + 1) = served limit attempts.length + 1 := by
      have hlimit := (h.hasRoom_iff hmax).mp hroom
      cases limit with
      | none => rfl
      | some l =>
          have hlt : attempts.length < l := hlimit l rfl
          simp only [served, Option.elim_some]
          omega
    rw [granted_of_hasRoom hroom, Ledger.size_grown, hserved, hsize, Nat.add_sub_add_right]
    exact ⟨rfl, hfailures⟩
  · obtain ⟨l, hlimit, hle, hfull⟩ := Ledger.allocate_of_full hmax hroom
    obtain rfl := h.limit_eq.symm.trans hlimit
    have hnoted : b.granted.failures = b.failures ++ [.nodeLimitExceeded l] := by
      simp [granted, allocate, hfull]
    simp only [served, Option.elim_some] at hsize hfailures ⊢
    have hserved : min (attempts.length + 1) l = min attempts.length l := by omega
    have hcount : attempts.length + 1 - min attempts.length l =
        attempts.length - min attempts.length l + 1 := by omega
    rw [granted_ledger_of_not_hasRoom hroom, hnoted, hfailures, hserved, hcount,
      List.replicate_succ']
    exact ⟨hsize, rfl⟩

theorem attempt (h : Balanced limit b attempts) (hmax : b.ledger.nextId ≤ Ledger.maxId)
    {p : Production} (hfits : p.fits b.store = true) :
    Balanced limit (b.call (.construct p)).1 (attempts ++ [(b.call (.construct p)).2]) := by
  have hgrows := b.call_grows (c := .construct p) (by simp)
  obtain ⟨hsize, hfailures, htaken⟩ := call_of_fits hfits
  obtain ⟨hserved, hnoted⟩ := h.granted_eq hmax
  refine ⟨?_, ?_, ?_, ?_, ?_⟩
  · rw [hgrows.config, h.limit_eq]
  · rw [hgrows.firstId]
    exact h.firstId_pos
  · rw [hsize, hserved, List.length_append, List.length_singleton]
  · rw [hfailures, hnoted, List.length_append, List.length_singleton]
  · intro k answer hk
    rcases Nat.lt_trichotomy k attempts.length with hlt | rfl | hgt
    · rw [List.getElem?_append_left hlt] at hk
      exact h.taken k answer hk
    · rw [List.getElem?_concat_length, Option.some.injEq] at hk
      subst hk
      exact ⟨b.newId, htaken, h.newId_ne_zero_iff hmax⟩
    · rw [List.getElem?_eq_none (by simp; omega)] at hk
      cases hk

theorem release (h : Balanced limit b attempts) : Balanced limit b.releaseAll [] where
  limit_eq := h.limit_eq
  firstId_pos := Ledger.firstId_releaseAll_pos h.firstId_pos
  size_eq := by cases limit <;> simp [served, releaseAll]
  failures_eq := by simp [releaseAll]
  taken := by simp

theorem call (h : Balanced limit b attempts) (hmax : b.ledger.nextId ≤ Ledger.maxId) (c : Call) :
    Balanced limit (b.call c).1 (b.attempted attempts c) := by
  cases c with
  | construct p =>
      cases hfits : p.fits b.store with
      | false =>
          rw [attempted, if_neg (by simp [hfits]), call_of_not_fits hfits]
          exact h
      | true =>
          rw [attempted, if_pos hfits]
          exact h.attempt hmax hfits
  | extend e =>
      obtain ⟨hsize, hfailures⟩ := b.call_extend_size e
      exact h.congr (b.call_grows (by simp)) hsize hfailures
  | releaseAll => exact h.release

theorem run (h : Balanced limit b attempts) (calls : List Call)
    (hmax : b.ledger.nextId + b.grants calls ≤ Ledger.maxId) :
    Balanced limit (b.run calls).1 (b.attempts attempts calls) := by
  induction calls generalizing b attempts with
  | nil => exact h
  | cons c rest ih =>
      rw [grants] at hmax
      apply ih (h.call (by omega) c)
      rw [call_nextId (by omega) c]
      omega

end Balanced

/-! ## Accounts -/

/-- Neither an extension nor a construction whose parts do not fit together touches the accounts. -/
structure Unaccounted (b : Builder) : Prop where
  extend : ∀ e, (b.call (.extend e)).1.ledger.size = b.ledger.size ∧
    (b.call (.extend e)).1.failures = b.failures
  misfit : ∀ p, p.fits b.store = false → (b.call (.construct p)).1 = b

/-- The accounts of a builder under a limit after a number of attempts. -/
structure LimitedAccounts (limit : Nat) (b : Builder)
    (attempts : List (Except Misuse (Option NodeRef))) : Prop where
  size_eq : b.ledger.size = min attempts.length limit
  failures_eq : b.failures =
    List.replicate (attempts.length - min attempts.length limit) (.nodeLimitExceeded limit)
  /-- The first attempts took an id and the later ones took none. -/
  taken : ∀ k answer, attempts[k]? = some answer →
    ∃ id, idTaken answer = some id ∧ (id ≠ 0 ↔ k < limit)
  unaccounted : Unaccounted b
  finish_iff : b.finish = .ok b.ledger ↔ attempts.length ≤ limit
  finish_failed : limit < attempts.length → b.finish = .error (.buildFailed b.failures)

/-- The accounts of a builder without a limit. -/
structure UnlimitedAccounts (b : Builder)
    (attempts : List (Except Misuse (Option NodeRef))) : Prop where
  size_eq : b.ledger.size = attempts.length
  failures_eq : b.failures = []
  taken : ∀ answer ∈ attempts, ∃ id, idTaken answer = some id ∧ id ≠ 0
  unaccounted : Unaccounted b
  finish_eq : b.finish = .ok b.ledger

theorem unaccounted (b : Builder) : Unaccounted b :=
  ⟨b.call_extend_size, fun _ => call_of_not_fits⟩

theorem finish_of_nil {b : Builder} (h : b.failures = []) : b.finish = .ok b.ledger := by
  simp [finish, h]

theorem finish_of_ne_nil {b : Builder} (h : b.failures ≠ []) :
    b.finish = .error (.buildFailed b.failures) := by
  simp [finish, h]

theorem Balanced.limitedAccounts {limit : Nat} {b : Builder}
    {attempts : List (Except Misuse (Option NodeRef))} (h : Balanced (some limit) b attempts) :
    LimitedAccounts limit b attempts := by
  have hfailures : b.failures =
      List.replicate (attempts.length - min attempts.length limit) (.nodeLimitExceeded limit) :=
    h.failures_eq
  have hnil : b.failures = [] ↔ attempts.length ≤ limit := by
    rw [hfailures, List.replicate_eq_nil_iff]
    omega
  have hfailed : limit < attempts.length → b.finish = .error (.buildFailed b.failures) :=
    fun hlt => finish_of_ne_nil fun hempty => Nat.not_le.mpr hlt (hnil.mp hempty)
  refine ⟨h.size_eq, hfailures, ?_, b.unaccounted, ⟨?_, ?_⟩, hfailed⟩
  · intro k answer hk
    simpa using h.taken k answer hk
  · intro hfinish
    refine Nat.le_of_not_lt fun hlt => ?_
    rw [hfailed hlt] at hfinish
    cases hfinish
  · exact fun hle => finish_of_nil (hnil.mpr hle)

theorem Balanced.unlimitedAccounts {b : Builder}
    {attempts : List (Except Misuse (Option NodeRef))} (h : Balanced none b attempts) :
    UnlimitedAccounts b attempts := by
  have hfailures : b.failures = [] := by
    rw [h.failures_eq, served, Option.elim_none, Nat.sub_self]
    rfl
  refine ⟨h.size_eq, hfailures, ?_, b.unaccounted, finish_of_nil hfailures⟩
  intro answer hanswer
  obtain ⟨k, hk⟩ := List.mem_iff_getElem?.mp hanswer
  simpa using h.taken k answer hk

/-- In every run that grants fewer than all ids the live ids and the failures are accounted for by
the attempts since the last release: a limit serves the first of them and leaves one failure for
each of the others, and without a limit nothing fails. -/
theorem run_accounts (store : Store) (config : LedgerConfig) (calls : List Call) :
    let start : Builder := { store, ledger := { config } }
    start.grants calls < Ledger.maxId →
    (∀ limit, config.nodeLimit = some limit →
      LimitedAccounts limit (start.run calls).1 (start.attempts [] calls)) ∧
    (config.nodeLimit = none →
      UnlimitedAccounts (start.run calls).1 (start.attempts [] calls)) := by
  intro start hbound
  have hnext : start.ledger.nextId = 1 := rfl
  have hnew : Balanced config.nodeLimit start [] := balanced_new store config
  have hbalanced := hnew.run calls (by omega)
  constructor
  · intro limit hlimit
    rw [hlimit] at hbalanced
    exact hbalanced.limitedAccounts
  · intro hlimit
    rw [hlimit] at hbalanced
    exact hbalanced.unlimitedAccounts

/-- A limit of two ids in a second tree: a part of the first tree is refused under an id that was
granted, another one when no id is left, and a wrong form asks for none. -/
theorem run_accounts_refused :
    let start : Builder := { ledger := { config := { nodeLimit := some 2 } } }
    let calls : List Call := [
      .construct (.expression (.identifier "a")),
      .releaseAll,
      .construct (.expression (.identifier "b")),
      .construct (.expression (.identifierNode ⟨0⟩)),
      .construct (.expression (.identifierLvalue .netConcatenation ⟨1⟩)),
      .construct (.expression (.identifierNode ⟨0⟩)),
      .construct (.expression (.identifier "c"))]
    start.grants calls = 3 ∧
      (start.attempts [] calls).map idTaken = [some 2, some 3, some 0, some 0] ∧
      LimitedAccounts 2 (start.run calls).1 (start.attempts [] calls) := by
  intro start calls
  exact ⟨by decide, by decide, (run_accounts {} { nodeLimit := some 2 } calls (by decide)).1 2 rfl⟩

end Builder

end VerilogTree
