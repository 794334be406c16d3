/-
  RequestEngine.Proofs.Failure.WriteType

  Write kinds and their wire texts.  Texts are read by one table and kinds are
  written by another one; the two agree.  A text that is none of the known names
  is kept letter by letter, so it names no known kind however much it resembles
  one.

    * `WriteType.names`         — the known names, said apart from both tables;
    * `WriteType.wire_ofWire`   — every text survives being read and written;
    * `WriteType.ofWire_wire_iff` — so does every kind, unless it keeps a known
      name as an unknown text;
    * `WriteType.ofWire_eq_iff` — which texts are read as a given kind;
    * `WriteType.Resembles`     — texts that differ from a name in case, or by
      blanks around it.
-/
import Mathlib.Logic.Function.Basic
import RequestEngine.Failure.Database

namespace RequestEngine.WriteType

variable {s name : String} {w : WriteType}

-- ============================================================================
-- Known names
-- ============================================================================

/-- The names of the known kinds. -/
def names : List String :=
  ["SIMPLE", "BATCH", "UNLOGGED_BATCH", "COUNTER", "BATCH_LOG", "CAS", "VIEW", "CDC"]

/-- A kind that keeps a known name as if it were an unknown text. No text is read as one. -/
def IsMasked (w : WriteType) : Prop :=
  ∃ name ∈ names, w = other name

theorem isMasked_other : (other s).IsMasked ↔ s ∈ names := by
  constructor
  · rintro ⟨name, hname, heq⟩
    cases heq
    exact hname
  · intro hname
    exact ⟨s, hname, rfl⟩

theorem not_isMasked_of_known (known : w.isOther = false) : ¬ w.IsMasked := by
  rintro ⟨name, -, rfl⟩
  cases known

theorem map_fst_known : known.map Prod.fst = names := rfl

-- ============================================================================
-- Reading and writing
-- ============================================================================

/-- A known name is read as a known kind, which is written by this name. -/
theorem ofWire_of_mem (hs : s ∈ names) : (ofWire s).isOther = false ∧ (ofWire s).wire = s := by
  revert s
  decide

/-- A text that is no known name is kept as it is. -/
theorem ofWire_of_not_mem (unknown : s ∉ names) : ofWire s = other s := by
  have hnone : known.lookup s = none := by
    rw [List.lookup_eq_none_iff]
    intro entry hentry
    rw [bne_iff_ne]
    rintro rfl
    exact unknown (map_fst_known ▸ List.mem_map_of_mem hentry)
  rw [ofWire, hnone]

/-- Every text survives being read and written. -/
theorem wire_ofWire (s : String) : (ofWire s).wire = s := by
  by_cases hs : s ∈ names
  · exact (ofWire_of_mem hs).2
  · rw [ofWire_of_not_mem hs]
    rfl

theorem ofWire_injective : Function.Injective ofWire :=
  Function.LeftInverse.injective wire_ofWire

/-- A kind survives being written and read exactly if it is not masked. -/
theorem ofWire_wire_iff (w : WriteType) : ofWire w.wire = w ↔ ¬ w.IsMasked := by
  cases w with
  | other s =>
    rw [isMasked_other]
    constructor
    · intro hkept hs
      have hknown := (ofWire_of_mem hs).1
      rw [show ofWire s = other s from hkept] at hknown
      cases hknown
    · exact ofWire_of_not_mem
  | _ => exact iff_of_true rfl (not_isMasked_of_known rfl)

/-- A text is read as what it is written from, and as nothing else. -/
theorem ofWire_eq_iff : ofWire s = w ↔ s = w.wire ∧ ¬ w.IsMasked := by
  constructor
  · rintro rfl
    rw [wire_ofWire, ← ofWire_wire_iff, wire_ofWire]
    exact ⟨rfl, rfl⟩
  · rintro ⟨rfl, hplain⟩
    exact (ofWire_wire_iff w).mpr hplain

/-- A known kind is read from one text only. -/
theorem ofWire_eq_iff_of_known (known : w.isOther = false) : ofWire s = w ↔ s = w.wire := by
  rw [ofWire_eq_iff, and_iff_left (not_isMasked_of_known known)]

-- ============================================================================
-- Texts that resemble a name
-- ============================================================================

/-- A text that would be the name if case made no difference and neither did blanks around it. -/
def Resembles (s name : String) : Prop :=
  ∃ before after : List Char, (∀ c ∈ before ++ after, c.isWhitespace = true) ∧
    s.toList.map Char.toUpper = before ++ name.toList ++ after

/-- Known names are in upper case. -/
theorem toUpper_of_mem_names (hs : s ∈ names) : s.toList.map Char.toUpper = s.toList := by
  revert s
  decide

/-- Known names have no blanks. -/
theorem not_isWhitespace_of_mem_names (hs : s ∈ names) {c : Char} (hc : c ∈ s.toList) :
    c.isWhitespace = false := by
  -- one Boolean for each name: a quantifier over characters may be decided by trying all of them
  have hall : ∀ s ∈ names, s.toList.all (!·.isWhitespace) = true := by decide
  simpa using List.all_eq_true.mp (hall s hs) c hc

/-- A text that resembles a name is the name itself or no name at all. -/
theorem not_mem_names_of_resembles (resembles : Resembles s name) (differs : s ≠ name) :
    s ∉ names := by
  obtain ⟨before, after, hblank, hletters⟩ := resembles
  intro hs
  rw [toUpper_of_mem_names hs] at hletters
  -- a blank around the name would be a blank of `s`, which is a known name and has none
  have hnone : before ++ after = [] := by
    refine List.eq_nil_iff_forall_not_mem.mpr fun c hc => ?_
    have hmem : c ∈ s.toList := by
      rw [hletters]
      rcases List.mem_append.mp hc with h | h <;> simp [h]
    exact Bool.false_ne_true ((not_isWhitespace_of_mem_names hs hmem).symm.trans (hblank c hc))
  obtain ⟨rfl, rfl⟩ := List.append_eq_nil_iff.mp hnone
  rw [List.nil_append, List.append_nil] at hletters
  exact differs (String.toList_inj.mp hletters)

/-- Neither case nor blanks are looked past: what only resembles a name is an unknown text. -/
theorem ofWire_of_resembles (resembles : Resembles s name) (differs : s ≠ name) :
    ofWire s = other s :=
  ofWire_of_not_mem (not_mem_names_of_resembles resembles differs)

example : ofWire "batch_log" = other "batch_log" ∧ ofWire "BATCH_LOG " = other "BATCH_LOG " :=
  ⟨rfl, rfl⟩

end RequestEngine.WriteType
