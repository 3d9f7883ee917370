import Mathlib.Data.List.TakeWhile
import Mathlib.Logic.Function.Basic
import RequestGuard.Settings.Reading
import RequestGuard.Settings.Summary

namespace RequestGuard

section Marks

variable {α : Type} [BEq α] [LawfulBEq α] {mark : α}

-- A text that is cut at its first mark is not cut further back than at a mark in it.

theorem takeWhile_marked (before behind : List α) :
    (before ++ mark :: behind).takeWhile (· != mark) = before.takeWhile (· != mark) := by
  induction before with
  | nil => simp
  | cons c rest ih =>
      by_cases h : c = mark
      · simp [h]
      · simp [h, ih]

theorem dropWhile_marked (before behind : List α) :
    (before ++ mark :: behind).dropWhile (· != mark) =
      before.dropWhile (· != mark) ++ mark :: behind := by
  induction before with
  | nil => simp
  | cons c rest ih =>
      by_cases h : c = mark
      · simp [h]
      · simp [h, ih]

end Marks

theorem takeWhile_dropWhile (p : α → Bool) (l : List α) : (l.dropWhile p).takeWhile p = [] :=
  List.takeWhile_eq_nil_iff.mpr (List.dropWhile_get_zero_not p l)

-- Credentials as far as they are shown: all before the last colon.
def shownName (credentials : List Char) : List Char :=
  ((credentials.reverse.dropWhile (· != ':')).drop 1).reverse

theorem mem_of_mem_shownName {credentials : List Char} {c : Char} (h : c ∈ shownName credentials) :
    c ∈ credentials := by
  have hdrop := (List.drop_sublist 1 _).mem (List.mem_reverse.mp h)
  exact List.mem_reverse.mp ((List.dropWhile_sublist _).mem hdrop)

theorem shownName_colon (text : List Char) : shownName (':' :: text) = [] ↔ ':' ∉ text := by
  have hlength : ∀ l : List Char, ((l ++ [':']).drop 1).reverse = [] ↔ l = [] := by
    intro l
    rw [List.reverse_eq_nil_iff, List.drop_eq_nil_iff, List.length_append, List.length_singleton,
      ← List.length_eq_zero_iff]
    omega
  rw [shownName, List.reverse_cons, dropWhile_marked, hlength, List.dropWhile_eq_nil_iff]
  simp only [List.mem_reverse, bne_iff_ne]
  exact ⟨fun h hmem => h ':' hmem rfl, fun h c hc heq => h (heq ▸ hc)⟩

-- What masking leaves to be read of a password: all before the last colon in front of the first
-- at sign, and all from that sign on.
def exposed (password : String) : List Char × List Char :=
  (shownName (':' :: password.toList.takeWhile (· != '@')), password.toList.dropWhile (· != '@'))

theorem exposed_eq_nil_iff (password : String) :
    exposed password = ([], []) ↔ ':' ∉ password.toList ∧ '@' ∉ password.toList := by
  rw [exposed, Prod.mk.injEq, shownName_colon, List.dropWhile_eq_nil_iff]
  constructor
  · rintro ⟨hcolon, hat⟩
    rw [List.takeWhile_eq_self_iff.mpr hat] at hcolon
    exact ⟨hcolon, fun hmem => by simpa using hat '@' hmem⟩
  · rintro ⟨hcolon, hat⟩
    refine ⟨fun hmem => hcolon ((List.takeWhile_sublist _).mem hmem), fun c hc => ?_⟩
    rw [bne_iff_ne]
    rintro rfl
    exact hat hc

-- An address with a password in it, and what masking makes of it.
def passwordUrl (password place : String) : String :=
  "redis://:" ++ password ++ "@" ++ place

theorem maskPassword_passwordUrl (password place : String) :
    maskPassword (passwordUrl password place) =
      String.ofList ("redis://".toList ++ ((exposed password).1 ++ ":***".toList ++
        (password.toList ++ '@' :: place.toList).dropWhile (· != '@'))) := by
  have hcut : cutAt "://".toList (passwordUrl password place).toList =
      some ("redis".toList, ':' :: (password.toList ++ '@' :: place.toList)) := by
    simp [passwordUrl, cutAt]
  have hname : (':' :: (password.toList ++ '@' :: place.toList)).takeWhile (· != '@') =
      ':' :: password.toList.takeWhile (· != '@') := by
    rw [List.takeWhile_cons_of_pos (by decide), takeWhile_marked]
  have hplace : (':' :: (password.toList ++ '@' :: place.toList)).dropWhile (· != '@') =
      (password.toList ++ '@' :: place.toList).dropWhile (· != '@') :=
    List.dropWhile_cons_of_pos (by decide)
  simp only [maskPassword, hcut, hname, hplace]
  rw [if_pos (by simp), if_pos (by simp), exposed, shownName]
  simp

theorem ne_at_of_mem_exposed {password : String} {c : Char} (h : c ∈ (exposed password).1) :
    (c != '@') = true := by
  rcases List.mem_cons.mp (mem_of_mem_shownName h) with rfl | hmem
  · rfl
  · exact List.mem_takeWhile_imp (p := (· != '@')) hmem

-- The first at sign shows where what was exposed in front of it ends, so the masked text tells no
-- more of a password and no less than what is exposed.
theorem maskPassword_eq_iff (p q place : String) :
    maskPassword (passwordUrl p place) = maskPassword (passwordUrl q place) ↔
      exposed p = exposed q := by
  have hfirst : ∀ r : String, ∀ rest : List Char,
      ((exposed r).1 ++ ":***".toList ++ rest.dropWhile (· != '@')).takeWhile (· != '@') =
        (exposed r).1 ++ ":***".toList := by
    intro r rest
    rw [List.takeWhile_append_of_pos, takeWhile_dropWhile, List.append_nil]
    intro c hc
    rcases List.mem_append.mp hc with hshown | hstars
    · exact ne_at_of_mem_exposed hshown
    · exact List.all_eq_true.mp (by decide : ":***".toList.all (· != '@') = true) c hstars
  rw [maskPassword_passwordUrl, maskPassword_passwordUrl, String.ofList_inj,
    List.append_cancel_left_eq]
  constructor
  · intro h
    have hbefore := congrArg (List.takeWhile (· != '@')) h
    rw [hfirst, hfirst] at hbefore
    rw [hbefore, List.append_cancel_left_eq, dropWhile_marked, dropWhile_marked] at h
    exact Prod.ext (List.append_cancel_right hbefore) (List.append_cancel_right h)
  · intro h
    have hbehind : p.toList.dropWhile (· != '@') = q.toList.dropWhile (· != '@') :=
      congrArg Prod.snd h
    rw [dropWhile_marked, dropWhile_marked, hbehind, h]

namespace Settings

variable {vars : Variables} {host p q : String} {s : Settings}

-- The variables as they are, but for the password of the store.
def withPassword (vars : Variables) (password : String) : Variables :=
  Function.update vars "REDIS_PASSWORD" (some password)

theorem withPassword_of_ne (vars : Variables) (password : String) {name : String}
    (h : name ≠ "REDIS_PASSWORD") : withPassword vars password name = vars name :=
  Function.update_of_ne h _ _

theorem readEnvironment_withPassword (vars : Variables) (password : String) :
    readEnvironment (withPassword vars password) = readEnvironment vars := by
  simp only [readEnvironment, withPassword_of_ne, ne_eq, String.reduceEq, not_false_eq_true]

theorem readSecret_withPassword (vars : Variables) (password : String) :
    readSecret (withPassword vars password) = readSecret vars := by
  simp only [readSecret, withPassword_of_ne, ne_eq, String.reduceEq, not_false_eq_true]

theorem readValidation_withPassword (vars : Variables) (password : String) :
    readValidation (withPassword vars password) = readValidation vars := by
  simp only [readValidation, amount, flag, withPassword_of_ne, ne_eq, String.reduceEq,
    not_false_eq_true]

theorem readLimits_withPassword (vars : Variables) (password : String) :
    readLimits (withPassword vars password) = readLimits vars := by
  simp only [readLimits, amount, ceiling, flag, list, withPassword_of_ne, ne_eq, String.reduceEq,
    not_false_eq_true]

theorem readLogging_withPassword (vars : Variables) (password : String) :
    readLogging (withPassword vars password) = readLogging vars := by
  simp only [readLogging, amount, flag, list, withPassword_of_ne, ne_eq, String.reduceEq,
    not_false_eq_true]

-- Nothing but the address of the store depends on the password.
theorem read_withPassword (vars : Variables) (password : String) :
    read (withPassword vars password) =
      (read vars).map fun s => { s with storeUrl := storeAddress (withPassword vars password) } := by
  simp only [read, readEnvironment_withPassword, readSecret_withPassword,
    readValidation_withPassword, readLimits_withPassword, readLogging_withPassword, text, amount,
    flag, list, withPassword_of_ne, ne_eq, String.reduceEq, not_false_eq_true]
  cases readEnvironment vars with
  | error e => rfl
  | ok environment =>
      cases readSecret vars with
      | error e => rfl
      | ok secret => rfl

theorem storeAddress_withPassword (hurl : vars "REDIS_URL" = none)
    (hhost : vars "REDIS_HOST" = some host) (hp : p ≠ "") :
    storeAddress (withPassword vars p) = some (passwordUrl p
      (host ++ ":" ++ text vars "REDIS_PORT" "6379" ++ "/" ++ text vars "REDIS_DB" "0")) := by
  have hpassword : withPassword vars p "REDIS_PASSWORD" = some p := Function.update_self ..
  simp only [storeAddress, text, withPassword_of_ne, ne_eq, String.reduceEq, not_false_eq_true,
    hurl, hhost, hpassword, hp, if_false, Option.none_or, Option.map_some, passwordUrl]

theorem summary_withUrl (s : Settings) (one two : String) :
    { s with storeUrl := some one }.summary = { s with storeUrl := some two }.summary ↔
      maskPassword one = maskPassword two := by
  simp only [summary, List.append_assoc, List.cons_append, List.cons.injEq, Prod.mk.injEq,
    String.append_right_inj, String.append_left_inj, true_and, and_true]

-- The summaries of two configurations that differ in the password of the store alone are the same
-- if the two passwords expose the same. What has neither a colon nor an at sign exposes nothing.
theorem summary_eq_iff_exposed (hurl : vars "REDIS_URL" = none)
    (hhost : vars "REDIS_HOST" = some host) (hp : p ≠ "") (hq : q ≠ "")
    (h : read (withPassword vars p) = .ok s) :
    ∃ t, read (withPassword vars q) = .ok t ∧
      (s.storeUrl.map maskPassword = t.storeUrl.map maskPassword ↔ exposed p = exposed q) ∧
      (s.summary = t.summary ↔ exposed p = exposed q) ∧
      ∀ r : String, exposed r = ([], []) ↔ ':' ∉ r.toList ∧ '@' ∉ r.toList := by
  have hone := storeAddress_withPassword hurl hhost hp
  have htwo := storeAddress_withPassword hurl hhost hq
  rw [read_withPassword, hone] at h
  cases hread : read vars with
  | error e =>
      rw [hread] at h
      contradiction
  | ok base =>
      rw [hread] at h
      cases h
      refine ⟨_, by rw [read_withPassword, hread, htwo]; rfl, ?_, ?_, exposed_eq_nil_iff⟩
      · simp only [Option.map_some, Option.some.injEq]
        exact maskPassword_eq_iff p q _
      · exact (summary_withUrl base _ _).trans (maskPassword_eq_iff p q _)

def sampleVariables : Variables := fun name =>
  if name = "JWT_SECRET" then some "key" else if name = "REDIS_HOST" then some "cache" else none

theorem exists_read_sample (password : String) :
    ∃ s, read (withPassword sampleVariables password) = .ok s := by
  rw [read_withPassword]
  exact ⟨_, rfl⟩

-- Two passwords that expose nothing.
theorem summary_eq_of_plain_passwords :
    ∃ s t, read (withPassword sampleVariables "swordfish") = .ok s ∧
      read (withPassword sampleVariables "x/y?z") = .ok t ∧
      exposed "swordfish" = exposed "x/y?z" ∧ s.summary = t.summary := by
  obtain ⟨s, hs⟩ := exists_read_sample "swordfish"
  have hhost : sampleVariables "REDIS_HOST" = some "cache" := rfl
  obtain ⟨t, ht, -, hsummary, -⟩ :=
    summary_eq_iff_exposed (q := "x/y?z") rfl hhost (by decide) (by decide) hs
  have hsame : exposed "swordfish" = exposed "x/y?z" := by decide +kernel
  exact ⟨s, t, hs, ht, hsame, hsummary.mpr hsame⟩

-- Of a password with a colon and an at sign in it all is in the summary but what is between them.
theorem password_in_summary :
    ∃ s t, read (withPassword sampleVariables "swordfish") = .ok s ∧
      read (withPassword sampleVariables "sword:fi@sh") = .ok t ∧
      "  Shared store: redis://:***@cache:6379/0 (redis)" ∈ s.summary.map Prod.snd ∧
      "  Shared store: redis://:sword:***@sh@cache:6379/0 (redis)" ∈ t.summary.map Prod.snd ∧
      s.summary ≠ t.summary := by
  have hplain : ((read (withPassword sampleVariables "swordfish")).toOption.any fun s =>
      (s.summary.map Prod.snd).contains "  Shared store: redis://:***@cache:6379/0 (redis)" &&
      !(s.summary.map Prod.snd).contains
        "  Shared store: redis://:sword:***@sh@cache:6379/0 (redis)") = true := by
    decide +kernel
  have hshown : ((read (withPassword sampleVariables "sword:fi@sh")).toOption.any fun t =>
      (t.summary.map Prod.snd).contains
        "  Shared store: redis://:sword:***@sh@cache:6379/0 (redis)") = true := by
    decide +kernel
  obtain ⟨s, hs⟩ := exists_read_sample "swordfish"
  obtain ⟨t, ht⟩ := exists_read_sample "sword:fi@sh"
  rw [hs] at hplain
  rw [ht] at hshown
  simp only [Except.toOption, Option.any_some, Bool.and_eq_true, Bool.not_eq_true',
    List.contains_iff_mem, Bool.eq_false_iff] at hplain hshown
  exact ⟨s, t, hs, ht, hplain.1, hshown,
    fun heq => hplain.2 (List.contains_iff_mem.mpr (heq ▸ hshown))⟩

end Settings

end RequestGuard
