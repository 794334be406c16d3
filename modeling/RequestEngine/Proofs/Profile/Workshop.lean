/-
  RequestEngine.Proofs.Profile.Workshop

  Builders, profiles and handles over time.  A program makes them in any order:
  it starts builders, makes settings, builds, derives builders from profiles and
  from what handles show, makes handles, clones them, remaps them and reads
  them.  What it has in the end is told by the steps alone.

    * `Workshop`, `Workshop.step`   — what there is, and what a step makes of it;
    * `Workshop.family`, `assigned` — the handle that a clone goes back to, and the
      profile that was given to it last;
    * `Workshop.origin`, `settings` — the profile that a builder goes back to, and
      the settings made since;
    * `Workshop.Placed`             — the invariant of handles and cells;
    * `Workshop.shown_eq`           — what a handle shows.

  Builders, profiles and handles are numbered in the order in which they were
  made.  Steps are listed from the last one back.
-/
import RequestEngine.Proofs.Profile.Settings

namespace RequestEngine

open ProfileBuilder (Setting)

/-- All builders, profiles and handles that were made, and the cells that handles share. -/
structure Workshop where
  builders : List ProfileBuilder := []
  profiles : List Profile := []
  handles : List ProfileHandle := []
  cells : ProfileCells := {}

namespace Workshop

-- ============================================================================
-- Steps
-- ============================================================================

/-- A step of a program. Builders, profiles and handles go by their numbers. -/
inductive Step where
  /-- Starts a builder with nothing set. -/
  | blank
  /-- Copies a builder. -/
  | copy (builder : Nat)
  /-- Starts a builder from a profile. -/
  | derive (profile : Nat)
  /-- Starts a builder from the profile that a handle shows. -/
  | deriveShown (handle : Nat)
  /-- Makes a setting. -/
  | set (builder : Nat) (setting : Setting)
  /-- Builds a profile. -/
  | build (builder : Nat)
  /-- Makes a handle that shows a profile. -/
  | handle (profile : Nat) (label : Option String)
  /-- Clones a handle. -/
  | clone (handle : Nat)
  /-- Makes a handle and all its clones show another profile. -/
  | remap (handle profile : Nat)
  /-- Takes the profile that a handle shows. -/
  | read (handle : Nat)

/-- The profile that a handle shows. -/
def shown (w : Workshop) (h : Nat) : Option Profile :=
  (w.handles[h]?).map w.cells.profile

/-- Another builder. -/
def addBuilder (w : Workshop) (b : ProfileBuilder) : Workshop :=
  { w with builders := w.builders ++ [b] }

/-- Another profile. -/
def addProfile (w : Workshop) (p : Profile) : Workshop :=
  { w with profiles := w.profiles ++ [p] }

/-- Another handle, in a cell of its own. -/
def addHandle (w : Workshop) (label : Option String) (p : Profile) : Workshop :=
  { w with handles := w.handles ++ [(w.cells.handle p label).2],
           cells := (w.cells.handle p label).1 }

/-- Takes a step, if all that it names is there. -/
def step (w : Workshop) : Step → Option Workshop
  | .blank => some (w.addBuilder {})
  | .copy b => (w.builders[b]?).map w.addBuilder
  | .derive p => (w.profiles[p]?).map fun profile => w.addBuilder profile.toBuilder
  | .deriveShown h => (w.shown h).map fun profile => w.addBuilder profile.toBuilder
  | .set b s => (w.builders[b]?).map fun builder =>
      { w with builders := w.builders.set b (builder.set s) }
  | .build b => (w.builders[b]?).map fun builder => w.addProfile builder.build
  | .handle p label => (w.profiles[p]?).map (w.addHandle label)
  | .clone h => (w.handles[h]?).map fun handle => { w with handles := w.handles ++ [handle] }
  | .remap h p => (w.handles[h]?).bind fun handle => (w.profiles[p]?).map fun profile =>
      { w with cells := w.cells.remap handle profile }
  | .read h => (w.shown h).map w.addProfile

/-- What there is after some steps. -/
def run : List Step → Option Workshop
  | [] => some {}
  | s :: earlier => (run earlier).bind fun w => w.step s

-- ============================================================================
-- What the steps tell
-- ============================================================================

/-- How many builders were made. -/
def builderCount : List Step → Nat
  | [] => 0
  | .blank :: earlier | .copy _ :: earlier | .derive _ :: earlier | .deriveShown _ :: earlier =>
    builderCount earlier + 1
  | _ :: earlier => builderCount earlier

/-- How many profiles were made. -/
def profileCount : List Step → Nat
  | [] => 0
  | .build _ :: earlier | .read _ :: earlier => profileCount earlier + 1
  | _ :: earlier => profileCount earlier

/-- How many handles were made. -/
def handleCount : List Step → Nat
  | [] => 0
  | .handle _ _ :: earlier | .clone _ :: earlier => handleCount earlier + 1
  | _ :: earlier => handleCount earlier

/-- The handle that a handle is a clone of, by way of other clones or not; an original one is
    that itself. -/
def family (h : Nat) : List Step → Nat
  | [] => h
  | .clone original :: earlier =>
    if h = handleCount earlier then family original earlier else family h earlier
  | _ :: earlier => family h earlier

/-- The profile that an original handle and its clones were given last: the one that the last
    remapping through any of them gave, or the one that the original was made with. -/
def assigned (root : Nat) : List Step → Option Nat
  | [] => none
  | .handle p _ :: earlier => if root = handleCount earlier then some p else assigned root earlier
  | .remap h p :: earlier => if family h earlier = root then some p else assigned root earlier
  | _ :: earlier => assigned root earlier

/-- The profile that a builder was derived from, itself or the builder that it was copied from. -/
def origin (b : Nat) : List Step → Option Nat
  | [] => none
  | .blank :: earlier => if b = builderCount earlier then none else origin b earlier
  | .copy original :: earlier =>
    if b = builderCount earlier then origin original earlier else origin b earlier
  | .derive p :: earlier => if b = builderCount earlier then some p else origin b earlier
  | .deriveShown h :: earlier =>
    if b = builderCount earlier then assigned (family h earlier) earlier else origin b earlier
  | _ :: earlier => origin b earlier

/-- The settings of a builder in the order in which they were made, on the builder that it was
    copied from and then on itself. -/
def settings (b : Nat) : List Step → List Setting
  | [] => []
  | .blank :: earlier | .derive _ :: earlier | .deriveShown _ :: earlier =>
    if b = builderCount earlier then [] else settings b earlier
  | .copy original :: earlier =>
    if b = builderCount earlier then settings original earlier else settings b earlier
  | .set b' s :: earlier =>
    if b' = b then settings b earlier ++ [s] else settings b earlier
  | _ :: earlier => settings b earlier

/-- A step names only what was made. -/
def Step.Possible (earlier : List Step) : Step → Prop
  | .blank => True
  | .copy b | .set b _ | .build b => b < builderCount earlier
  | .derive p | .handle p _ => p < profileCount earlier
  | .deriveShown h | .clone h | .read h => h < handleCount earlier
  | .remap h p => h < handleCount earlier ∧ p < profileCount earlier

variable {w w' : Workshop} {s : Step} {steps earlier later : List Step}

theorem run_cons : run (s :: earlier) = some w' ↔
    ∃ w, run earlier = some w ∧ w.step s = some w' :=
  Option.bind_eq_some_iff

/-- Every run has begun with a run. -/
theorem run_append (ran : run (later ++ earlier) = some w') : ∃ w, run earlier = some w := by
  induction later generalizing w' with
  | nil => exact ⟨w', ran⟩
  | cons s later ih =>
    obtain ⟨w, hran, -⟩ := run_cons.mp ran
    exact ih hran

-- ============================================================================
-- What a step does
-- ============================================================================

/-- All that a step can do. -/
inductive Taken (w : Workshop) : Step → Workshop → Prop where
  | blank : Taken w .blank (w.addBuilder {})
  | copy {b : Nat} {builder : ProfileBuilder} (there : w.builders[b]? = some builder) :
    Taken w (.copy b) (w.addBuilder builder)
  | derive {p : Nat} {profile : Profile} (there : w.profiles[p]? = some profile) :
    Taken w (.derive p) (w.addBuilder profile.toBuilder)
  | deriveShown {h : Nat} {profile : Profile} (there : w.shown h = some profile) :
    Taken w (.deriveShown h) (w.addBuilder profile.toBuilder)
  | set {b : Nat} {builder : ProfileBuilder} (there : w.builders[b]? = some builder)
    (s : Setting) :
    Taken w (.set b s) { w with builders := w.builders.set b (builder.set s) }
  | build {b : Nat} {builder : ProfileBuilder} (there : w.builders[b]? = some builder) :
    Taken w (.build b) (w.addProfile builder.build)
  | handle {p : Nat} {profile : Profile} (there : w.profiles[p]? = some profile)
    (label : Option String) : Taken w (.handle p label) (w.addHandle label profile)
  | clone {h : Nat} {handle : ProfileHandle} (there : w.handles[h]? = some handle) :
    Taken w (.clone h) { w with handles := w.handles ++ [handle] }
  | remap {h p : Nat} {handle : ProfileHandle} {profile : Profile}
    (there : w.handles[h]? = some handle) (other : w.profiles[p]? = some profile) :
    Taken w (.remap h p) { w with cells := w.cells.remap handle profile }
  | read {h : Nat} {profile : Profile} (there : w.shown h = some profile) :
    Taken w (.read h) (w.addProfile profile)

theorem taken (made : w.step s = some w') : Taken w s w' := by
  cases s <;>
    simp only [Workshop.step, Option.map_eq_some_iff, Option.bind_eq_some_iff,
      Option.some.injEq] at made
  case blank =>
    subst made
    exact .blank
  case copy =>
    obtain ⟨builder, there, rfl⟩ := made
    exact .copy there
  case derive =>
    obtain ⟨profile, there, rfl⟩ := made
    exact .derive there
  case deriveShown =>
    obtain ⟨profile, there, rfl⟩ := made
    exact .deriveShown there
  case set =>
    obtain ⟨builder, there, rfl⟩ := made
    exact .set there _
  case build =>
    obtain ⟨builder, there, rfl⟩ := made
    exact .build there
  case handle =>
    obtain ⟨profile, there, rfl⟩ := made
    exact .handle there _
  case clone =>
    obtain ⟨handle, there, rfl⟩ := made
    exact .clone there
  case remap =>
    obtain ⟨handle, there, profile, other, rfl⟩ := made
    exact .remap there other
  case read =>
    obtain ⟨profile, there, rfl⟩ := made
    exact .read there

/-- Profiles stay as they were built. -/
theorem Taken.profiles (made : Taken w s w') : w.profiles <+: w'.profiles := by
  cases made with
  | build | read => exact List.prefix_append ..
  | _ => exact List.prefix_rfl

/-- What is at a place of a list stays there if the list grows at its end. -/
theorem lookup_of_prefix {α : Type} {l l' : List α} {i : Nat} {x : α} (grown : l <+: l')
    (there : l[i]? = some x) : l'[i]? = some x := by
  obtain ⟨hi, rfl⟩ := List.getElem?_eq_some_iff.mp there
  exact List.prefix_iff_getElem?.mp grown i hi

/-- What is in a list that has grown by one was there before, or is the last. -/
theorem lookup_concat {α : Type} {l : List α} {i : Nat} {x y : α}
    (there : (l ++ [y])[i]? = some x) : l[i]? = some x ∨ i = l.length ∧ x = y := by
  grind

-- ============================================================================
-- How many there are
-- ============================================================================

/-- There are as many builders, profiles and handles as were made. -/
structure Counted (steps : List Step) (w : Workshop) : Prop where
  builders : w.builders.length = builderCount steps
  profiles : w.profiles.length = profileCount steps
  handles : w.handles.length = handleCount steps

theorem Counted.step (counted : Counted earlier w) (made : Taken w s w') :
    Counted (s :: earlier) w' := by
  obtain ⟨hbuilders, hprofiles, hhandles⟩ := counted
  cases made with
  | blank | copy | derive | deriveShown =>
    exact ⟨by simp [addBuilder, builderCount, hbuilders], hprofiles, hhandles⟩
  | set => exact ⟨by simp [builderCount, hbuilders], hprofiles, hhandles⟩
  | build | read =>
    exact ⟨hbuilders, by simp [addProfile, profileCount, hprofiles], hhandles⟩
  | handle => exact ⟨hbuilders, hprofiles, by simp [addHandle, handleCount, hhandles]⟩
  | clone => exact ⟨hbuilders, hprofiles, by simp [handleCount, hhandles]⟩
  | remap => exact ⟨hbuilders, hprofiles, hhandles⟩

theorem counted (ran : run steps = some w) : Counted steps w := by
  induction steps generalizing w with
  | nil =>
    cases ran
    exact ⟨rfl, rfl, rfl⟩
  | cons s earlier ih =>
    obtain ⟨w₀, hran, hmade⟩ := run_cons.mp ran
    exact (ih hran).step (taken hmade)

/-- A step can be taken if all that it names is there. -/
theorem isSome_step (ran : run steps = some w) : (w.step s).isSome ↔ s.Possible steps := by
  obtain ⟨hbuilders, hprofiles, hhandles⟩ := counted ran
  cases s with
  | blank => exact ⟨fun _ => trivial, fun _ => rfl⟩
  | copy b | set b | build b =>
    rw [Workshop.step, Option.isSome_map, isSome_getElem?, hbuilders]
    rfl
  | derive p | handle p =>
    rw [Workshop.step, Option.isSome_map, isSome_getElem?, hprofiles]
    rfl
  | deriveShown h | clone h | read h =>
    simp only [Workshop.step, shown, Option.isSome_map]
    rw [isSome_getElem?, hhandles]
    rfl
  | remap h p =>
    have hboth : (w.step (.remap h p)).isSome ↔
        (w.handles[h]?).isSome ∧ (w.profiles[p]?).isSome := by
      rw [Workshop.step]
      cases w.handles[h]? <;> simp
    rw [hboth, isSome_getElem?, isSome_getElem?, hhandles, hprofiles]
    rfl

-- ============================================================================
-- Handles
-- ============================================================================

/-- A handle that is yet to be made goes back to itself. -/
theorem family_of_le {h : Nat} (unmade : handleCount steps ≤ h) : family h steps = h := by
  induction steps with
  | nil => rfl
  | cons s earlier ih =>
    cases s with
    | clone original =>
      have hearlier : handleCount earlier + 1 ≤ h := unmade
      rw [family, if_neg (by omega)]
      exact ih (by omega)
    | handle p label =>
      have hearlier : handleCount earlier + 1 ≤ h := unmade
      exact ih (by omega)
    | _ => exact ih unmade

/-- Handles share a cell with their clones only, and it holds what was assigned last. -/
structure Placed (steps : List Step) (w : Workshop) : Prop where
  /-- A handle goes back to one that was made. -/
  made : ∀ h x, w.handles[h]? = some x → family h steps < handleCount steps
  /-- A cell belongs to one family. -/
  shared : ∀ h g x y, w.handles[h]? = some x → w.handles[g]? = some y →
    (x.cell = y.cell ↔ family h steps = family g steps)
  /-- It holds the profile that was assigned to the family last. -/
  holds : ∀ h x, w.handles[h]? = some x → ∃ p profile,
    assigned (family h steps) steps = some p ∧ w.profiles[p]? = some profile ∧
      w.cells.profiles[x.cell]? = some profile

namespace Placed

/-- A step that assigns nothing, and after which each handle is one that there was before. -/
theorem reindex (placed : Placed earlier w)
    (each : ∀ h x, w'.handles[h]? = some x →
      ∃ g, w.handles[g]? = some x ∧ family h (s :: earlier) = family g earlier)
    (cells : w'.cells = w.cells) (profiles : w.profiles <+: w'.profiles)
    (grown : handleCount earlier ≤ handleCount (s :: earlier))
    (kept : ∀ root, assigned root (s :: earlier) = assigned root earlier) :
    Placed (s :: earlier) w' where
  made h x there := by
    obtain ⟨g, hg, hfamily⟩ := each h x there
    have hmade := placed.made g x hg
    rw [hfamily]
    omega
  shared h k x y there other := by
    obtain ⟨g, hg, hfamily⟩ := each h x there
    obtain ⟨i, hi, hother⟩ := each k y other
    rw [hfamily, hother]
    exact placed.shared g i x y hg hi
  holds h x there := by
    obtain ⟨g, hg, hfamily⟩ := each h x there
    obtain ⟨p, profile, hassigned, hprofile, hcell⟩ := placed.holds g x hg
    refine ⟨p, profile, ?_, lookup_of_prefix profiles hprofile, ?_⟩
    · rw [kept, hfamily]
      exact hassigned
    · rw [cells]
      exact hcell

/-- A step that leaves the handles and what was assigned to them. -/
theorem frame (placed : Placed earlier w) (made : Taken w s w') (handles : w'.handles = w.handles)
    (cells : w'.cells = w.cells) (count : handleCount (s :: earlier) = handleCount earlier)
    (families : ∀ h, family h (s :: earlier) = family h earlier)
    (kept : ∀ root, assigned root (s :: earlier) = assigned root earlier) :
    Placed (s :: earlier) w' := by
  refine placed.reindex ?_ cells made.profiles (Nat.le_of_eq count.symm) kept
  intro h x there
  rw [handles] at there
  exact ⟨h, there, families h⟩

/-- A clone has the cell of the handle that it was made from. -/
theorem clone (placed : Placed earlier w) (counted : Counted earlier w) {original : Nat}
    {handle : ProfileHandle} (there : w.handles[original]? = some handle) :
    Placed (.clone original :: earlier) { w with handles := w.handles ++ [handle] } := by
  refine placed.reindex ?_ rfl List.prefix_rfl (Nat.le_succ _) fun _ => rfl
  intro h x hlookup
  rcases lookup_concat hlookup with hold | ⟨rfl, rfl⟩
  · have hlt : h < w.handles.length := (List.getElem?_eq_some_iff.mp hold).1
    have hne : h ≠ handleCount earlier := by
      have := counted.handles
      omega
    exact ⟨h, hold, if_neg hne⟩
  · exact ⟨original, there, if_pos counted.handles⟩

/-- A handle that is no clone has a cell of its own. -/
theorem handle (placed : Placed earlier w) (counted : Counted earlier w) {p : Nat}
    {profile : Profile} (there : w.profiles[p]? = some profile) (label : Option String) :
    Placed (.handle p label :: earlier) (w.addHandle label profile) := by
  have hnew : family w.handles.length earlier = handleCount earlier := by
    rw [counted.handles]
    exact family_of_le (Nat.le_refl _)
  -- no handle so far has the new cell
  have hcell : ∀ (h : Nat) (x : ProfileHandle), w.handles[h]? = some x →
      x.cell < w.cells.profiles.length := by
    intro h x hlookup
    obtain ⟨_, _, _, _, hheld⟩ := placed.holds h x hlookup
    exact (List.getElem?_eq_some_iff.mp hheld).1
  refine ⟨?_, ?_, ?_⟩
  · intro h x hlookup
    show family h earlier < handleCount earlier + 1
    rcases lookup_concat hlookup with hold | ⟨rfl, rfl⟩
    · have hmade := placed.made h x hold
      omega
    · omega
  · intro h g x y hlookup hother
    show _ ↔ family h earlier = family g earlier
    rcases lookup_concat hlookup with hold | ⟨rfl, rfl⟩
    · rcases lookup_concat hother with hother | ⟨rfl, rfl⟩
      · exact placed.shared h g x y hold hother
      · have hlt := hcell h x hold
        have hmade := placed.made h x hold
        show x.cell = w.cells.profiles.length ↔ _
        omega
    · rcases lookup_concat hother with hother | ⟨rfl, rfl⟩
      · have hlt := hcell g y hother
        have hmade := placed.made g y hother
        show w.cells.profiles.length = y.cell ↔ _
        omega
      · exact ⟨fun _ => rfl, fun _ => rfl⟩
  · intro h x hlookup
    show ∃ q prof, (if family h earlier = handleCount earlier then some p
        else assigned (family h earlier) earlier) = some q ∧ w.profiles[q]? = some prof ∧
      (w.cells.profiles ++ [profile])[x.cell]? = some prof
    rcases lookup_concat hlookup with hold | ⟨rfl, rfl⟩
    · obtain ⟨q, prof, hassigned, hprof, hheld⟩ := placed.holds h x hold
      have hmade := placed.made h x hold
      refine ⟨q, prof, ?_, hprof, lookup_of_prefix (List.prefix_append ..) hheld⟩
      rw [if_neg (by omega)]
      exact hassigned
    · exact ⟨p, profile, if_pos hnew, there, List.getElem?_concat_length⟩

/-- A remapping shows in the handles of one family. -/
theorem remap (placed : Placed earlier w) {h p : Nat} {x : ProfileHandle} {profile : Profile}
    (there : w.handles[h]? = some x) (other : w.profiles[p]? = some profile) :
    Placed (.remap h p :: earlier) { w with cells := w.cells.remap x profile } := by
  refine ⟨placed.made, placed.shared, ?_⟩
  intro g y hlookup
  show ∃ q prof, (if family h earlier = family g earlier then some p
      else assigned (family g earlier) earlier) = some q ∧ w.profiles[q]? = some prof ∧
    (w.cells.profiles.set x.cell profile)[y.cell]? = some prof
  obtain ⟨q, prof, hassigned, hprof, hheld⟩ := placed.holds g y hlookup
  have hshared := placed.shared h g x y there hlookup
  by_cases hfamily : family h earlier = family g earlier
  · have hcell : x.cell = y.cell := hshared.mpr hfamily
    have hlt : y.cell < w.cells.profiles.length := (List.getElem?_eq_some_iff.mp hheld).1
    refine ⟨p, profile, if_pos hfamily, other, ?_⟩
    rw [hcell]
    exact List.getElem?_set_self hlt
  · have hcell : x.cell ≠ y.cell := fun heq => hfamily (hshared.mp heq)
    refine ⟨q, prof, ?_, hprof, ?_⟩
    · rw [if_neg hfamily]
      exact hassigned
    · rw [List.getElem?_set_ne hcell]
      exact hheld

theorem step (placed : Placed earlier w) (counted : Counted earlier w) (made : Taken w s w') :
    Placed (s :: earlier) w' := by
  have hmade := made
  cases made with
  | handle there label => exact placed.handle counted there label
  | clone there => exact placed.clone counted there
  | remap there other => exact placed.remap there other
  | _ => exact placed.frame hmade rfl rfl rfl (fun _ => rfl) fun _ => rfl

end Placed

theorem placed (ran : run steps = some w) : Placed steps w := by
  induction steps generalizing w with
  | nil =>
    cases ran
    refine ⟨?_, ?_, ?_⟩ <;> intro h <;> simp
  | cons s earlier ih =>
    obtain ⟨w₀, hran, hmade⟩ := run_cons.mp ran
    exact (ih hran).step (counted hran) (taken hmade)

/-- A handle shows the profile that was assigned to its family last. -/
theorem shown_eq (ran : run steps = some w) {h : Nat} (made : h < handleCount steps) :
    ∃ p profile, assigned (family h steps) steps = some p ∧ w.profiles[p]? = some profile ∧
      w.shown h = some profile := by
  have hlt : h < w.handles.length := by
    rw [(counted ran).handles]
    exact made
  have hlookup : w.handles[h]? = some w.handles[h] := List.getElem?_eq_getElem hlt
  obtain ⟨p, profile, hassigned, hprofile, hheld⟩ := (placed ran).holds h _ hlookup
  refine ⟨p, profile, hassigned, hprofile, ?_⟩
  rw [shown, hlookup, Option.map_some, ProfileCells.profile, hheld]
  rfl

end Workshop

end RequestEngine
