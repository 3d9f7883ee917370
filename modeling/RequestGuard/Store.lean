import RequestGuard.Text.Numeral

namespace RequestGuard

-- Where an operation breaks off in the middle.
inductive Crash where
  | deadlineOverflow
  | countOverflow
  | leewayOverflow
  | raised (message : String)
  | unreadable
deriving DecidableEq

def Crash.message : Crash → String
  | deadlineOverflow => "overflow when adding duration to instant"
  | countOverflow => "attempt to add with overflow"
  | leewayOverflow => "attempt to subtract with overflow"
  | raised message => message
  | unreadable => "unknown panic payload"

inductive StoreError where
  | connection (detail : String)
  | operation (detail : String)
deriving DecidableEq

def StoreError.message : StoreError → String
  | connection detail => "Store connection error: " ++ detail
  | operation detail => "Store operation error: " ++ detail

inductive Reply (α : Type) where
  | done (a : α)
  | failed (error : StoreError)
  | broken (crash : Crash)

-- A deadline in milliseconds; an entry without one is held until it is written again.
structure Entry where
  value : String
  deadline : Option Nat
deriving DecidableEq

def Entry.isExpired (entry : Entry) (now : Nat) : Bool :=
  entry.deadline.any (· ≤ now)

-- Expired entries may still be held. Each key is there once.
structure Store where
  entries : List (String × Entry) := []
  lastSweep : Nat := 0
  distinct : (entries.map Prod.fst).Nodup := by simp

namespace Store

def find? (store : Store) (key : String) : Option Entry :=
  (store.entries.find? (·.1 == key)).map Prod.snd

def size (store : Store) : Nat :=
  store.entries.length

def erase (store : Store) (key : String) : Store :=
  { store with
    entries := store.entries.filter (·.1 != key)
    distinct := store.distinct.sublist (List.filter_sublist.map _) }

def put (store : Store) (key : String) (entry : Entry) : Store :=
  { store with
    entries := (store.erase key).entries ++ [(key, entry)]
    distinct := by
      rw [List.map_append, List.nodup_append]
      refine ⟨(store.erase key).distinct, List.pairwise_singleton _ _, ?_⟩
      intro k hk _ hkey heq
      rw [heq, List.mem_singleton.mp hkey] at hk
      simp [erase] at hk }

def purge (store : Store) (now : Nat) : Store :=
  { store with
    entries := store.entries.filter (!·.2.isExpired now)
    distinct := store.distinct.sublist (List.filter_sublist.map _) }

-- How many expired entries a purge lets go.
def expiredCount (store : Store) (now : Nat) : Nat :=
  store.size - (store.purge now).size

def sweepInterval : Nat := 30000

-- Writes sweep the whole store, but not more often than twice a minute.
def sweep (store : Store) (now : Nat) : Store :=
  if now - store.lastSweep < sweepInterval then store
  else { store.purge now with lastSweep := now }

-- Drops the entry that is looked at, if it is expired.
def touch (store : Store) (now : Nat) (key : String) : Store :=
  match store.find? key with
  | some entry => if entry.isExpired now then store.erase key else store
  | none => store

-- The last second that the clock can show, in milliseconds.
def endOfTime : Nat := 0x7FFFFFFFFFFFFFFF * 1000

-- A lifetime is a second at least.
def deadlineAfter (now ttl : Nat) : Option Nat :=
  let deadline := now + max ttl 1 * 1000
  if deadline < endOfTime then some deadline else none

-- The entry that an increment starts from. An expired one starts again.
def counterAt (store : Store) (now : Nat) (key : String) : Entry :=
  match store.find? key with
  | some entry => if entry.isExpired now then ⟨"0", none⟩ else entry
  | none => ⟨"0", none⟩

-- Only the increment that reaches one sets a deadline. If that lies beyond the end of the
-- clock, the count is already written.
def increment (store : Store) (now : Nat) (key : String) (ttl : Nat) : Reply Nat × Store :=
  let swept := store.sweep now
  let entry := swept.counterAt now key
  let held := swept.put key entry
  match readWord entry.value with
  | none => (.failed (.operation ("value at " ++ key ++ " is not an integer")), held)
  | some count =>
    if Numeral.maxWord ≤ count then (.broken .countOverflow, held)
    else
      let counted := swept.put key { entry with value := decimal (count + 1) }
      if count + 1 = 1 then
        match deadlineAfter now ttl with
        | none => (.broken .deadlineOverflow, counted)
        | some deadline => (.done 1, swept.put key ⟨decimal 1, some deadline⟩)
      else (.done (count + 1), counted)

def get (store : Store) (now : Nat) (key : String) : Option String × Store :=
  let touched := store.touch now key
  ((touched.find? key).map (·.value), touched)

def set (store : Store) (now : Nat) (key value : String) (ttl : Nat) : Reply Unit × Store :=
  let swept := store.sweep now
  match deadlineAfter now ttl with
  | none => (.broken .deadlineOverflow, swept)
  | some deadline => (.done (), swept.put key ⟨value, some deadline⟩)

def contains (store : Store) (now : Nat) (key : String) : Bool × Store :=
  let touched := store.touch now key
  ((touched.find? key).isSome, touched)

-- Tells whether the key was held, expired or not.
def delete (store : Store) (key : String) : Bool × Store :=
  ((store.find? key).isSome, store.erase key)

end Store

-- The way to a store: open, closed, or closed to increments after some more of them.
inductive Link where
  | working
  | failing
  | incrementsLeft (n : Nat)
deriving DecidableEq

structure Backend where
  link : Link := .working
  store : Store := {}

namespace Backend

def refusal : StoreError :=
  .connection "connection refused"

-- An operation on the store behind a link that is open.
def through (backend : Backend) (operation : Store → Reply α × Store) : Reply α × Backend :=
  match backend.link with
  | .failing => (.failed refusal, backend)
  | _ =>
    let (reply, store) := operation backend.store
    (reply, { backend with store })

def increment (backend : Backend) (now : Nat) (key : String) (ttl : Nat) :
    Reply Nat × Backend :=
  match backend.link with
  | .incrementsLeft 0 => (.failed refusal, backend)
  | .incrementsLeft (n + 1) =>
    ({ backend with link := .incrementsLeft n }).through (·.increment now key ttl)
  | _ => backend.through (·.increment now key ttl)

def get (backend : Backend) (now : Nat) (key : String) : Reply (Option String) × Backend :=
  backend.through fun store => let (value, store) := store.get now key; (.done value, store)

def set (backend : Backend) (now : Nat) (key value : String) (ttl : Nat) :
    Reply Unit × Backend :=
  backend.through (·.set now key value ttl)

def contains (backend : Backend) (now : Nat) (key : String) : Reply Bool × Backend :=
  backend.through fun store => let (found, store) := store.contains now key; (.done found, store)

def delete (backend : Backend) (key : String) : Reply Bool × Backend :=
  backend.through fun store => let (found, store) := store.delete key; (.done found, store)

def isHealthy (backend : Backend) : Bool :=
  backend.link != .failing

end Backend

end RequestGuard
