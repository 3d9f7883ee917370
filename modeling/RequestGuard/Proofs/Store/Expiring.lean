import RequestGuard.Proofs.Store.Operations

namespace RequestGuard

inductive Operation where
  | increment (key : String) (ttl : Nat)
  | get (key : String)
  | set (key value : String) (ttl : Nat)
  | contains (key : String)
  | delete (key : String)
  | purge

-- The time to live of a written entry ends before the clock does.
def Operation.Fits (now : Nat) : Operation → Prop
  | increment _ ttl => now + max ttl 1 * 1000 < Store.endOfTime
  | set _ _ ttl => now + max ttl 1 * 1000 < Store.endOfTime
  | _ => True

-- What an operation tells. A deletion counts expired entries that are still held, and so does
-- a purge, so nothing is said of what these two tell.
inductive Answer where
  | counted (reply : Reply Nat)
  | read (value : Option String)
  | written (reply : Reply Unit)
  | found (isThere : Bool)
  | untold

namespace Store

def perform (store : Store) (now : Nat) : Operation → Answer × Store
  | .increment key ttl =>
    let (reply, next) := store.increment now key ttl
    (.counted reply, next)
  | .get key =>
    let (value, next) := store.get now key
    (.read value, next)
  | .set key value ttl =>
    let (reply, next) := store.set now key value ttl
    (.written reply, next)
  | .contains key =>
    let (isThere, next) := store.contains now key
    (.found isThere, next)
  | .delete key => (.untold, (store.delete key).2)
  | .purge => (.untold, store.purge now)

def answers (store : Store) : List (Nat × Operation) → List Answer
  | [] => []
  | (now, operation) :: rest =>
    (store.perform now operation).1 :: (store.perform now operation).2.answers rest

end Store

-- A value and the time at which it disappears, under every key. Nothing is ever swept.
abbrev ExpiringMap := String → Option (String × Nat)

namespace ExpiringMap

def empty : ExpiringMap :=
  fun _ => none

def lookup (map : ExpiringMap) (now : Nat) (key : String) : Option (String × Nat) :=
  (map key).filter (now < ·.2)

def write (map : ExpiringMap) (key value : String) (deadline : Nat) : ExpiringMap :=
  fun other => if other = key then some (value, deadline) else map other

def remove (map : ExpiringMap) (key : String) : ExpiringMap :=
  fun other => if other = key then none else map other

-- A missing key counts from zero. Only the count of one sets the time of disappearance.
def increment (map : ExpiringMap) (now : Nat) (key : String) (ttl : Nat) :
    Reply Nat × ExpiringMap :=
  match map.lookup now key with
  | none => (.done 1, map.write key (decimal 1) (now + max ttl 1 * 1000))
  | some (value, deadline) =>
    match readWord value with
    | none => (.failed (.operation ("value at " ++ key ++ " is not an integer")), map)
    | some count =>
      if Numeral.maxWord ≤ count then (.broken .countOverflow, map)
      else if count = 0 then (.done 1, map.write key (decimal 1) (now + max ttl 1 * 1000))
      else (.done (count + 1), map.write key (decimal (count + 1)) deadline)

def perform (map : ExpiringMap) (now : Nat) : Operation → Answer × ExpiringMap
  | .increment key ttl =>
    let (reply, next) := map.increment now key ttl
    (.counted reply, next)
  | .get key => (.read ((map.lookup now key).map Prod.fst), map)
  | .set key value ttl => (.written (.done ()), map.write key value (now + max ttl 1 * 1000))
  | .contains key => (.found (map.lookup now key).isSome, map)
  | .delete key => (.untold, map.remove key)
  | .purge => (.untold, map)

def answers (map : ExpiringMap) : List (Nat × Operation) → List Answer
  | [] => []
  | (now, operation) :: rest =>
    (map.perform now operation).1 :: (map.perform now operation).2.answers rest

def entryOf (held : String × Nat) : Entry :=
  ⟨held.1, some held.2⟩

end ExpiringMap

namespace Store

open ExpiringMap (entryOf)

-- From now on a store and a map hold the same, as far as it has not expired.
def Shows (store : Store) (now : Nat) (map : ExpiringMap) : Prop :=
  ∀ key, store.live now key = (map.lookup now key).map entryOf

theorem Shows.later {store : Store} {now later : Nat} {map : ExpiringMap}
    (h : store.Shows now map) (hle : now ≤ later) : store.Shows later map := by
  intro key
  rw [live_later store hle, h key]
  simp only [ExpiringMap.lookup]
  cases map key with
  | none => rfl
  | some held =>
      by_cases hlater : later < held.2
      · have hnow : now < held.2 := by omega
        simp [Option.filter_some, hnow, hlater, entryOf, Entry.isExpired]
      · by_cases hnow : now < held.2
        · simp [Option.filter_some, hnow, hlater, entryOf, Entry.isExpired, Nat.le_of_not_lt hlater]
        · simp [Option.filter_some, hnow, hlater]

-- A write on both sides keeps them together.
theorem Shows.write {store next : Store} {now : Nat} {map : ExpiringMap}
    (h : store.Shows now map) {key value : String} {deadline : Nat} (hdeadline : now < deadline)
    (hnext : ∀ other, next.live now other =
      if other = key then some ⟨value, some deadline⟩ else store.live now other) :
    next.Shows now (map.write key value deadline) := by
  intro other
  rw [hnext]
  by_cases hother : other = key
  · simp [hother, ExpiringMap.lookup, ExpiringMap.write, Option.filter_some, hdeadline, entryOf]
  · simp [hother, h other, ExpiringMap.lookup, ExpiringMap.write]

theorem Shows.congr {store next : Store} {now : Nat} {map : ExpiringMap}
    (h : store.Shows now map) (hnext : ∀ other, next.live now other = store.live now other) :
    next.Shows now map := by
  intro other
  rw [hnext, h other]

theorem Shows.empty (now : Nat) : ({} : Store).Shows now ExpiringMap.empty := by
  intro key
  rfl

theorem increment_shows {store : Store} {now : Nat} {map : ExpiringMap} (h : store.Shows now map)
    (key : String) {ttl : Nat} (hroom : now + max ttl 1 * 1000 < endOfTime) :
    (store.increment now key ttl).1 = (map.increment now key ttl).1 ∧
      (store.increment now key ttl).2.Shows now (map.increment now key ttl).2 := by
  have hstart := counterAt_eq store now key
  have hdeadline : now < now + max ttl 1 * 1000 := by omega
  rw [h key] at hstart
  unfold ExpiringMap.increment
  cases hlookup : map.lookup now key with
  | none =>
      rw [hlookup] at hstart
      have hread : readWord (store.counterAt now key).value = some 0 := by
        rw [hstart]
        decide
      obtain ⟨hreply, hlive⟩ := increment_first store now key ttl hread hroom
      exact ⟨hreply, h.write hdeadline hlive⟩
  | some held =>
      obtain ⟨value, deadline⟩ := held
      rw [hlookup, Option.map_some, Option.getD_some] at hstart
      have hvalue : (store.counterAt now key).value = value := by rw [hstart]; rfl
      rw [← hvalue]
      cases hread : readWord (store.counterAt now key).value with
      | none =>
          obtain ⟨hreply, hlive⟩ := increment_unreadable store now key ttl hread
          simp only [hread]
          exact ⟨hreply, h.congr hlive⟩
      | some count =>
          simp only [hread]
          by_cases hmax : Numeral.maxWord ≤ count
          · obtain ⟨hreply, hlive⟩ := increment_greatest store now key ttl hmax hread
            rw [if_pos hmax]
            exact ⟨hreply, h.congr hlive⟩
          rw [if_neg hmax]
          by_cases hzero : count = 0
          · subst hzero
            obtain ⟨hreply, hlive⟩ := increment_first store now key ttl hread hroom
            exact ⟨hreply, h.write hdeadline hlive⟩
          · obtain ⟨hreply, hlive⟩ := increment_later store now key ttl
              (Nat.pos_of_ne_zero hzero) (Nat.lt_of_not_le hmax) hread
            have hheld : now < deadline := by
              simpa using (Option.filter_eq_some_iff.mp hlookup).2
            rw [hstart] at hlive
            rw [if_neg hzero]
            exact ⟨hreply, h.write hheld hlive⟩

-- One step keeps a store and the map that it shows together and tells the same.
theorem perform_shows {store : Store} {now : Nat} {map : ExpiringMap} (h : store.Shows now map)
    {operation : Operation} (hfits : operation.Fits now) :
    (store.perform now operation).1 = (map.perform now operation).1 ∧
      (store.perform now operation).2.Shows now (map.perform now operation).2 := by
  cases operation with
  | increment key ttl =>
      obtain ⟨hreply, hshows⟩ := increment_shows h key hfits
      exact ⟨congrArg Answer.counted hreply, hshows⟩
  | get key =>
      refine ⟨?_, h.congr fun other => live_get store now key (Nat.le_refl now) other⟩
      simp only [perform, ExpiringMap.perform, get_value, h key, Option.map_map]
      rfl
  | set key value ttl =>
      obtain ⟨hreply, hlive⟩ := set_written store now key ttl value hfits
      refine ⟨congrArg Answer.written hreply, h.write ?_ hlive⟩
      omega
  | contains key =>
      refine ⟨?_, h.congr fun other => live_contains store now key (Nat.le_refl now) other⟩
      simp only [perform, ExpiringMap.perform, contains_found, h key, Option.isSome_map]
  | delete key =>
      refine ⟨rfl, fun other => ?_⟩
      simp only [perform, ExpiringMap.perform, live_delete, h other, ExpiringMap.lookup,
        ExpiringMap.remove]
      split
      · rfl
      · rfl
  | purge => exact ⟨rfl, h.congr fun other => live_purge store (Nat.le_refl now) other⟩

theorem answers_shows {store : Store} {now : Nat} {map : ExpiringMap} (h : store.Shows now map)
    {run : List (Nat × Operation)} (hforward : run.Pairwise (·.1 ≤ ·.1))
    (hnow : ∀ step ∈ run, now ≤ step.1) (hfits : ∀ step ∈ run, step.2.Fits step.1) :
    store.answers run = map.answers run := by
  induction run generalizing store now map with
  | nil => rfl
  | cons step rest ih =>
      obtain ⟨time, operation⟩ := step
      rw [List.pairwise_cons] at hforward
      obtain ⟨hhead, hrest⟩ := List.forall_mem_cons.mp hnow
      obtain ⟨hfit, hfits⟩ := List.forall_mem_cons.mp hfits
      obtain ⟨hanswer, hnext⟩ := perform_shows (h.later hhead) hfit
      rw [answers, ExpiringMap.answers, hanswer, ih hnext hforward.2 hforward.1 hfits]

-- Lazy removal, the restart of an expired counter in place and the sweeps are never seen: over
-- any run a fresh store tells what the expiring map tells.
theorem answers_eq_expiringMap (run : List (Nat × Operation))
    (hforward : run.Pairwise (·.1 ≤ ·.1)) (hfits : ∀ step ∈ run, step.2.Fits step.1) :
    ({} : Store).answers run = ExpiringMap.empty.answers run :=
  answers_shows (Shows.empty 0) hforward (fun _ _ => Nat.zero_le _) hfits

-- A counter at its time of expiry, and again after a write has swept.
theorem answers_eq_expiringMap_at_expiry :
    ({} : Store).answers [(0, .increment "a" 1), (999, .increment "a" 9), (1000, .get "a"),
        (1000, .increment "a" 0), (31000, .set "b" "1" 5), (31000, .contains "a")] =
      ExpiringMap.empty.answers [(0, .increment "a" 1), (999, .increment "a" 9), (1000, .get "a"),
        (1000, .increment "a" 0), (31000, .set "b" "1" 5), (31000, .contains "a")] := by
  refine answers_eq_expiringMap _ (by decide) ?_
  simp [Operation.Fits, Store.endOfTime]

end Store

end RequestGuard
