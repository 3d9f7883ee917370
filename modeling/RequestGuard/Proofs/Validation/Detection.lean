import RequestGuard.Proofs.Validation.Texts

namespace RequestGuard.Validation

variable {settings : ValidationSettings} {found : List (String × String)} {detector : Detector}

-- A detector that is enabled finds fault with nothing, wherever it stands.
def Clear (settings : ValidationSettings) (found : List (String × String))
    (detector : Detector) : Prop :=
  detector.enabled settings = true →
    ∀ s, (∃ place, (place, s) ∈ found) → detector.detects s = false

theorem hits_eq_nil :
    hits detector found = [] ↔ ∀ s, (∃ place, (place, s) ∈ found) → detector.detects s = false := by
  rw [hits, List.map_eq_nil_iff, List.filter_eq_nil_iff]
  constructor
  · rintro h s ⟨place, hplace⟩
    exact Bool.eq_false_iff.mpr (h (place, s) hplace)
  · intro h pair hpair
    exact Bool.eq_false_iff.mp (h pair.2 ⟨pair.1, hpair⟩)

theorem detect_of_clear (h : Clear settings found detector) :
    detect settings found detector = .ok () := by
  unfold detect
  split_ifs with henabled
  · rw [hits_eq_nil.mpr (h henabled)]
  · rfl

theorem detect_of_not_clear (h : ¬Clear settings found detector) :
    ∃ paths, detect settings found detector = .error (rejection detector paths) := by
  unfold Clear at h
  rw [Classical.not_imp, ← hits_eq_nil] at h
  obtain ⟨henabled, hhits⟩ := h
  rw [detect, if_pos henabled]
  split
  · contradiction
  · exact ⟨_, rfl⟩

theorem detectAll_of_clear (h : ∀ detector, Clear settings found detector) :
    detectAll settings found = .ok () := by
  rw [detectAll, detect_of_clear (h .script), detect_of_clear (h .query)]
  rfl

theorem detectAll_of_script (h : ¬Clear settings found .script) :
    ∃ paths, detectAll settings found = .error (rejection .script paths) := by
  obtain ⟨paths, hpaths⟩ := detect_of_not_clear h
  rw [detectAll, hpaths]
  exact ⟨paths, rfl⟩

theorem detectAll_of_query (hscript : Clear settings found .script)
    (h : ¬Clear settings found .query) :
    ∃ paths, detectAll settings found = .error (rejection .query paths) := by
  obtain ⟨paths, hpaths⟩ := detect_of_not_clear h
  rw [detectAll, detect_of_clear hscript, hpaths]
  exact ⟨paths, rfl⟩

theorem mem_queryTexts {query : Option String} {s : String} :
    (∃ place, (place, s) ∈ queryTexts query) ↔
      ∃ q, query = some q ∧ ∃ name, (name, s) ∈ Form.read (bytesOf q) := by
  cases query with
  | none => simp [queryTexts]
  | some q =>
      simp only [queryTexts, Option.map_some, Option.getD_some, List.mem_map]
      constructor
      · rintro ⟨place, pair, hpair, heq⟩
        cases heq
        exact ⟨q, rfl, pair.1, hpair⟩
      · rintro ⟨_, ⟨rfl⟩, name, hname⟩
        exact ⟨Path.query name, (name, s), hname, rfl⟩

end RequestGuard.Validation
