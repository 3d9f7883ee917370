import RequestGuard.Guard.Quota
import RequestGuard.Proofs.Limiter.Keys
import Mathlib.Data.Nat.Init

namespace RequestGuard

namespace Text

theorem hexDigit_isHexDigit : ∀ n < 16, isHexDigit (hexDigit n) = true := by decide

theorem hexDigits_isHexDigit (n : Nat) : ∀ c ∈ hexDigits n, isHexDigit c = true := by
  induction n using hexDigits.induct with
  | case1 n hsmall =>
      rw [hexDigits, if_pos hsmall]
      simpa using hexDigit_isHexDigit n hsmall
  | case2 n hlarge ih =>
      rw [hexDigits, if_neg hlarge]
      intro c hc
      rcases List.mem_append.mp hc with hc | hc
      · exact ih c hc
      · rw [List.mem_singleton.mp hc]
        exact hexDigit_isHexDigit _ (Nat.mod_lt n (by omega))

end Text

namespace Address

-- The characters that addresses are written in.
def IsMark (c : Char) : Prop :=
  Text.isHexDigit c = true ∨ c = '.' ∨ c = ':'

theorem isMark_digits (n : Nat) : ∀ c ∈ Numeral.digits n, IsMark c := by
  intro c hc
  simp [IsMark, Text.isHexDigit, Numeral.digits_isDigit n c hc]

theorem isMark_octets (a b c d : Octet) : ∀ mark ∈ octets a b c d, IsMark mark := by
  have hdot : IsMark '.' := .inr (.inl rfl)
  have hcons {text : List Char} (h : ∀ mark ∈ text, IsMark mark) :
      ∀ mark ∈ '.' :: text, IsMark mark := List.forall_mem_cons.mpr ⟨hdot, h⟩
  have happend (n : Nat) {text : List Char} (h : ∀ mark ∈ text, IsMark mark) :
      ∀ mark ∈ Numeral.digits n ++ text, IsMark mark :=
    List.forall_mem_append.mpr ⟨isMark_digits n, h⟩
  simp only [octets, List.append_assoc, List.cons_append]
  exact happend _ (hcons (happend _ (hcons (happend _ (hcons (isMark_digits _))))))

theorem isMark_writeGroups (groups : List Group) : ∀ mark ∈ writeGroups groups, IsMark mark := by
  have hgroup (group : Group) : ∀ mark ∈ Text.hexDigits group.val, IsMark mark :=
    fun mark hmark => .inl (Text.hexDigits_isHexDigit _ mark hmark)
  induction groups with
  | nil => exact List.forall_mem_nil _
  | cons group rest ih =>
      cases rest with
      | nil => simpa [writeGroups, List.intercalate_singleton] using hgroup group
      | cons next rest =>
          rw [writeGroups, List.map_cons, List.map_cons, List.intercalate_cons_cons]
          refine List.forall_mem_append.mpr ⟨List.forall_mem_append.mpr ⟨hgroup group, ?_⟩, ih⟩
          simp [IsMark]

theorem isMark_mapped : ∀ mark ∈ "::ffff:".toList, IsMark mark := by
  have hhex : IsMark 'f' := .inl (by decide)
  have hcolon : IsMark ':' := .inr (.inr rfl)
  simp [hhex, hcolon]

theorem isMark_writeLong (groups : List Group) : ∀ mark ∈ writeLong groups, IsMark mark := by
  have hcolon : IsMark ':' := .inr (.inr rfl)
  fun_cases writeLong groups with
  | case1 high low => exact List.forall_mem_append.mpr ⟨isMark_mapped, isMark_octets _ _ _ _⟩
  | case2 _ start length hrun hlong =>
      rw [if_pos (by rwa [hrun])]
      refine List.forall_mem_append.mpr ⟨isMark_writeGroups _, ?_⟩
      exact List.forall_mem_cons.mpr ⟨hcolon,
        List.forall_mem_cons.mpr ⟨hcolon, isMark_writeGroups _⟩⟩
  | case3 _ start length hrun hshort =>
      rw [if_neg (by rwa [hrun])]
      exact isMark_writeGroups _

theorem isMark_write : ∀ address : Address, ∀ mark ∈ address.write, IsMark mark
  | v4 a b c d => isMark_octets a b c d
  | v6 groups _ => isMark_writeLong groups

end Address

namespace Limiter

-- The identities that requests are counted for.
inductive IsCaller : String → Prop
  | user (subject : String) : IsCaller ("user:" ++ subject)
  | address (address : Address) : IsCaller ("ip:" ++ address.text)
  | unknown : IsCaller "ip:unknown"

theorem anonymousIdentity_isCaller (behindProxy : Bool) (request : Request) :
    IsCaller (request.anonymousIdentity behindProxy) := by
  unfold Request.anonymousIdentity
  split
  · exact .address _
  · exact .unknown

theorem limitIdentity_isCaller (settings : LimitSettings) (request : Request) (context : Context) :
    IsCaller (Guard.limitIdentity settings request context) := by
  unfold Guard.limitIdentity
  split
  · exact .user _
  · exact anonymousIdentity_isCaller _ _

theorem isMark_last (address : Address) {c : Char}
    (h : ("ip:" ++ address.text).toList.getLast? = some c) : Address.IsMark c := by
  rw [String.toList_append, List.getLast?_append, Address.text, String.toList_ofList] at h
  cases hlast : address.write.getLast? with
  | none =>
      rw [hlast, Option.none_or] at h
      cases h
      exact .inr (.inr rfl)
  | some d =>
      rw [hlast, Option.some_or] at h
      cases h
      exact address.isMark_write c (List.mem_of_getLast? hlast)

-- No address ends in the name of a longer window.
theorem apart_of_address {identity : String} (address : Address) :
    Apart ("ip:" ++ address.text) identity := by
  constructor
  · intro h
    have hlast : Address.IsMark 'r' := isMark_last address (by rw [h]; simp)
    exact absurd hlast (by unfold Address.IsMark; decide)
  · intro h
    have hlast : Address.IsMark 'y' := isMark_last address (by rw [h]; simp)
    exact absurd hlast (by unfold Address.IsMark; decide)

theorem apart_of_unknown (identity : String) : Apart "ip:unknown" identity := by
  constructor
  · intro h
    have hlast := congrArg (·.toList.getLast?) h
    simp at hlast
  · intro h
    have hlast := congrArg (·.toList.getLast?) h
    simp at hlast

theorem apart_user {s t : String} (h : Apart s t) : Apart ("user:" ++ s) ("user:" ++ t) := by
  constructor
  · intro heq
    rw [String.append_assoc] at heq
    exact h.1 ((String.append_right_inj _).mp heq)
  · intro heq
    rw [String.append_assoc] at heq
    exact h.2 ((String.append_right_inj _).mp heq)

theorem apart_user_ip (s a : String) : Apart ("user:" ++ s) ("ip:" ++ a) := by
  constructor
  · intro h
    have hfirst := congrArg (·.toList.head?) h
    simp at hfirst
  · intro h
    have hfirst := congrArg (·.toList.head?) h
    simp at hfirst

-- Only subjects that differ by the name of a longer window could be taken for each other.
theorem apart_of_callers {a b : String} (ha : IsCaller a) (hb : IsCaller b)
    (hsubjects : ∀ s t, a = "user:" ++ s → b = "user:" ++ t → Apart s t) : Apart a b := by
  cases ha with
  | address address => exact apart_of_address address
  | unknown => exact apart_of_unknown b
  | user s =>
      cases hb with
      | user t => exact apart_user (hsubjects s t rfl rfl)
      | address address => exact apart_user_ip s _
      | unknown => exact apart_user_ip s "unknown"

end Limiter

end RequestGuard
