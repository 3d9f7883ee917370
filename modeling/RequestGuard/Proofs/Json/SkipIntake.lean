import RequestGuard.Proofs.Json.Intake

namespace RequestGuard.Json

variable {text rest : Bytes}

-- What is passed over leaves no more than there was.

theorem length_of_skipExponent (h : skipExponent text = .ok rest) :
    rest.length ≤ text.length := by
  unfold skipExponent at h
  dsimp only at h
  split at h
  · contradiction
  · next d more hbody =>
      have hlength : (d :: more).length ≤ text.length := by
        rw [← hbody]
        split
        · exact Nat.le_succ _
        · exact Nat.le_succ _
        · exact Nat.le_refl _
      have hdropped := List.length_dropWhile_le isDigit more
      split at h
      · cases h
        exact hdropped.trans (Nat.le_of_succ_le hlength)
      · contradiction

theorem length_of_skipFraction (h : skipFraction text = .ok rest) :
    rest.length ≤ text.length := by
  have hdropped := List.length_dropWhile_le isDigit text
  unfold skipFraction at h
  dsimp only at h
  split at h
  · contradiction
  · split at h
    · cases h
      exact Nat.zero_le _
    · next mark after hmark =>
        rw [hmark, List.length_cons] at hdropped
        split at h
        · have hexponent := length_of_skipExponent h
          omega
        · cases h
          exact List.length_dropWhile_le isDigit text

theorem length_of_skipNumberTail (h : skipNumberTail text = .ok rest) :
    rest.length ≤ text.length := by
  unfold skipNumberTail at h
  split at h
  · cases h
    exact Nat.le_refl _
  · split_ifs at h with hpoint hmark
    · exact Nat.le_succ_of_le (length_of_skipFraction h)
    · exact Nat.le_succ_of_le (length_of_skipExponent h)
    · cases h
      exact Nat.le_refl _

theorem length_of_skipNumber (h : skipNumber text = .ok rest) : rest.length ≤ text.length := by
  unfold skipNumber at h
  split at h
  · contradiction
  · next d more =>
      split_ifs at h with hzero hdigit
      · split at h
        · split at h
          · contradiction
          · exact Nat.le_succ_of_le (length_of_skipNumberTail h)
        · cases h
          exact Nat.zero_le _
      · have hdropped := List.length_dropWhile_le isDigit more
        have htail := length_of_skipNumberTail h
        rw [List.length_cons]
        omega

theorem length_of_skipText (h : skipText text = .ok rest) : rest.length ≤ text.length := by
  fun_induction skipText text with
  | case2 b more hquote =>
      cases h
      exact Nat.le_succ _
  | case4 b more hquote hbackslash after hescape hshort ih =>
      have hrest := ih h
      rw [List.length_cons]
      omega
  | case6 b more hquote hbackslash hcontrol ih => exact Nat.le_succ_of_le (ih h)
  | _ => contradiction

theorem length_of_skipKey (h : skipKey text = .ok rest) : rest.length ≤ text.length := by
  unfold skipKey at h
  split at h
  · contradiction
  · next b more hskip =>
      have hlength := length_of_skip hskip
      split at h
      · split at h
        · contradiction
        · next after htext =>
            have hkey := length_of_skipText htext
            have hcolon := readColon_intake h
            omega
      · contradiction

theorem length_of_readWord {word : Bytes} (h : readWord word text = .ok rest) :
    rest.length ≤ text.length := by
  rw [readWord_intake h]
  exact Nat.le_add_left _ _

-- What one round leaves to the next one.
def Leaves (fuel : Nat) (text rest : Bytes) : Prop :=
  ∃ stage frames after, skipValues fuel stage frames after = .ok rest ∧
    after.length ≤ text.length

theorem Leaves.mono {fuel : Nat} {more : Bytes} (h : Leaves fuel more rest)
    (hle : more.length ≤ text.length) : Leaves fuel text rest := by
  obtain ⟨stage, frames, after, hnext, hafter⟩ := h
  exact ⟨stage, frames, after, hnext, hafter.trans hle⟩

theorem leaves_of_next {fuel : Nat} {stage : Stage} {frames : List Frame}
    (h : skipValues fuel stage frames text = .ok rest) : Leaves fuel text rest :=
  ⟨stage, frames, text, h, Nat.le_refl _⟩

-- A scalar ends where its reader stops.
theorem leaves_of_scalar {fuel : Nat} {frames : List Frame} {read : Except Fault Bytes}
    (hread : ∀ {after}, read = .ok after → after.length ≤ text.length)
    (h : (match read with
      | .error fault => (.error fault : Except Fault Bytes)
      | .ok after => skipValues fuel .closed frames after) = .ok rest) :
    Leaves fuel text rest := by
  split at h
  · contradiction
  · exact (leaves_of_next h).mono (hread rfl)

theorem leaves_of_value {fuel : Nat} {frames : List Frame}
    (h : skipValues (fuel + 1) .value frames text = .ok rest) : Leaves fuel text rest := by
  rw [skipValues] at h
  split at h
  · contradiction
  · next b more hskip =>
      have hlength := length_of_skip hskip
      suffices Leaves fuel (b :: more) rest from this.mono hlength
      dsimp only at h
      split_ifs at h with hnull htrue hfalse hminus hdigit hquote hopen hbrace
      · exact leaves_of_scalar (fun hword => Nat.le_succ_of_le (length_of_readWord hword)) h
      · exact leaves_of_scalar (fun hword => Nat.le_succ_of_le (length_of_readWord hword)) h
      · exact leaves_of_scalar (fun hword => Nat.le_succ_of_le (length_of_readWord hword)) h
      · exact leaves_of_scalar (fun hnumber => Nat.le_succ_of_le (length_of_skipNumber hnumber)) h
      · exact leaves_of_scalar length_of_skipNumber h
      · exact leaves_of_scalar (fun htext => Nat.le_succ_of_le (length_of_skipText htext)) h
      · exact (leaves_of_next h).mono (Nat.le_succ _)
      · exact (leaves_of_next h).mono (Nat.le_succ _)

theorem leaves_of_again {fuel : Nat} {frame : Frame} {outer : List Frame}
    (h : (match frame with
      | .list => skipValues fuel .value (frame :: outer) text
      | .object =>
        match skipKey text with
        | .error fault => .error fault
        | .ok after => skipValues fuel .value (frame :: outer) after) = .ok rest) :
    Leaves fuel text rest := by
  split at h
  · exact leaves_of_next h
  · split at h
    · contradiction
    · next hkey => exact (leaves_of_next h).mono (length_of_skipKey hkey)

theorem leaves_of_opened {fuel : Nat} {frame : Frame} {outer : List Frame}
    (h : skipValues (fuel + 1) .opened (frame :: outer) text = .ok rest) :
    Leaves fuel text rest := by
  unfold skipValues at h
  dsimp only at h
  split at h
  · contradiction
  · contradiction
  · contradiction
  · next b more hskip _ =>
      have hlength := length_of_skip hskip
      split_ifs at h with hclose
      · exact (leaves_of_next h).mono (Nat.le_of_succ_le hlength)
      · exact (leaves_of_again h).mono hlength

theorem leaves_of_closed {fuel : Nat} {frame : Frame} {outer : List Frame}
    (h : skipValues (fuel + 1) .closed (frame :: outer) text = .ok rest) :
    Leaves fuel text rest := by
  unfold skipValues at h
  dsimp only at h
  split at h
  · contradiction
  · contradiction
  · next b more hskip _ =>
      have hlength := length_of_skip hskip
      suffices Leaves fuel more rest from this.mono (Nat.le_of_succ_le hlength)
      split_ifs at h with hcomma hclose
      · exact leaves_of_again h
      · exact leaves_of_next h
  · contradiction

-- So nothing is left beyond what there was, by induction on the rounds.
theorem length_of_skipValues {fuel : Nat} {stage : Stage} {frames : List Frame}
    (h : skipValues fuel stage frames text = .ok rest) : rest.length ≤ text.length := by
  induction fuel generalizing stage frames text with
  | zero => cases stage <;> contradiction
  | succ fuel ih =>
      have hleaves : rest = text ∨ Leaves fuel text rest := by
        cases stage with
        | value => exact .inr (leaves_of_value h)
        | opened =>
            cases frames with
            | nil =>
                cases h
                exact .inl rfl
            | cons frame outer => exact .inr (leaves_of_opened h)
        | closed =>
            cases frames with
            | nil =>
                cases h
                exact .inl rfl
            | cons frame outer => exact .inr (leaves_of_closed h)
      rcases hleaves with rfl | ⟨stage, frames, after, hnext, hlength⟩
      · exact Nat.le_refl _
      · exact (ih hnext).trans hlength

theorem length_of_skipValue (h : skipValue text = .ok rest) : rest.length ≤ text.length :=
  length_of_skipValues h

end RequestGuard.Json
