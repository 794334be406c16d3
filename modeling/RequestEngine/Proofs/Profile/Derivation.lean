/-
  RequestEngine.Proofs.Profile.Derivation

  What a profile has that was built, and what stays as it was.  A builder is
  what it was derived from with the settings that were made since, so a profile
  has the last setting made for each field, else that of the profile that its
  builder goes back to.  Nothing else reaches a profile, a builder or a handle:
  profiles stay for good, builders until a setting is made on them, and handles
  until one of their own family is remapped.

    * `Workshop.Derived`   — the invariant of builders;
    * `Workshop.Account`   — all that the steps tell of what there is;
    * `Workshop.told_by_steps` — every run is as its steps tell.
-/
import RequestEngine.Proofs.Profile.Workshop

namespace RequestEngine

open ProfileBuilder (Setting lastFor)

namespace Workshop

variable {w w' w₀ : Workshop} {s : Step} {steps earlier later : List Step}

-- ============================================================================
-- Builders
-- ============================================================================

/-- The builder to start with: a blank one, or one that was derived from a profile. -/
def start (w : Workshop) : Option Nat → Option ProfileBuilder
  | none => some {}
  | some p => (w.profiles[p]?).map Profile.toBuilder

/-- The profile that a builder goes back to: the one that it was derived from, or the defaults. -/
def source (w : Workshop) : Option Nat → Option Profile
  | none => some Profile.standard
  | some p => w.profiles[p]?

theorem start_of_prefix {from? : Option Nat} {b : ProfileBuilder}
    (grown : w.profiles <+: w'.profiles) (started : w.start from? = some b) :
    w'.start from? = some b := by
  cases from? with
  | none => exact started
  | some p =>
    obtain ⟨profile, hprofile, rfl⟩ := Option.map_eq_some_iff.mp started
    rw [start, lookup_of_prefix grown hprofile]
    rfl

/-- A builder is what it was derived from, with the settings that were made since. -/
def Derived (steps : List Step) (w : Workshop) : Prop :=
  ∀ (b : Nat) (builder : ProfileBuilder), w.builders[b]? = some builder →
    ∃ first, w.start (origin b steps) = some first ∧ builder = first.setAll (settings b steps)

namespace Derived

/-- A step that leaves the builders and what was made of them. -/
theorem frame (derived : Derived earlier w) (made : Taken w s w')
    (builders : w'.builders = w.builders)
    (origins : ∀ b, origin b (s :: earlier) = origin b earlier)
    (kept : ∀ b, settings b (s :: earlier) = settings b earlier) : Derived (s :: earlier) w' := by
  intro b builder there
  rw [builders] at there
  obtain ⟨first, hstart, heq⟩ := derived b builder there
  rw [origins, kept]
  exact ⟨first, start_of_prefix made.profiles hstart, heq⟩

/-- A step that makes a builder. -/
theorem add (derived : Derived earlier w) (counted : Counted earlier w) {x : ProfileBuilder}
    (origins : ∀ b, b ≠ builderCount earlier → origin b (s :: earlier) = origin b earlier)
    (kept : ∀ b, b ≠ builderCount earlier → settings b (s :: earlier) = settings b earlier)
    (fresh : ∃ first, w.start (origin (builderCount earlier) (s :: earlier)) = some first ∧
      x = first.setAll (settings (builderCount earlier) (s :: earlier))) :
    Derived (s :: earlier) (w.addBuilder x) := by
  intro b builder there
  rcases lookup_concat there with hold | ⟨rfl, rfl⟩
  · have hlt : b < w.builders.length := (List.getElem?_eq_some_iff.mp hold).1
    have hne : b ≠ builderCount earlier := by
      have := counted.builders
      omega
    rw [origins b hne, kept b hne]
    exact derived b builder hold
  · rw [counted.builders]
    exact fresh

/-- A setting is made on one builder. -/
theorem set (derived : Derived earlier w) {b : Nat} {builder : ProfileBuilder}
    (there : w.builders[b]? = some builder) (s : Setting) :
    Derived (.set b s :: earlier) { w with builders := w.builders.set b (builder.set s) } := by
  intro c other hlookup
  show ∃ first, w.start (origin c earlier) = some first ∧
    other = first.setAll (if b = c then settings c earlier ++ [s] else settings c earlier)
  by_cases hsame : b = c
  · subst hsame
    have hlt : b < w.builders.length := (List.getElem?_eq_some_iff.mp there).1
    have hother : builder.set s = other := by
      have hset : (w.builders.set b (builder.set s))[b]? = some (builder.set s) :=
        List.getElem?_set_self hlt
      exact Option.some.inj (hset.symm.trans hlookup)
    obtain ⟨first, hstart, rfl⟩ := derived b builder there
    refine ⟨first, hstart, ?_⟩
    rw [if_pos rfl, ProfileBuilder.setAll_concat]
    exact hother.symm
  · have hold : w.builders[c]? = some other := by
      rw [← hlookup]
      exact (List.getElem?_set_ne hsame).symm
    rw [if_neg hsame]
    exact derived c other hold

theorem step (derived : Derived earlier w) (counted : Counted earlier w) (placed : Placed earlier w)
    (made : Taken w s w') : Derived (s :: earlier) w' := by
  have hmade := made
  cases made with
  | blank =>
    refine derived.add counted (fun b hne => if_neg hne) (fun b hne => if_neg hne) ⟨{}, ?_, ?_⟩
    · rw [origin, if_pos rfl]
      rfl
    · rw [settings, if_pos rfl]
      rfl
  | copy there =>
    refine derived.add counted (fun b hne => if_neg hne) (fun b hne => if_neg hne) ?_
    rw [origin, if_pos rfl, settings, if_pos rfl]
    exact derived _ _ there
  | @derive p profile there =>
    refine derived.add counted (fun b hne => if_neg hne) (fun b hne => if_neg hne)
      ⟨profile.toBuilder, ?_, ?_⟩
    · rw [origin, if_pos rfl, start, there]
      rfl
    · rw [settings, if_pos rfl]
      rfl
  | @deriveShown h profile there =>
    refine derived.add counted (fun b hne => if_neg hne) (fun b hne => if_neg hne)
      ⟨profile.toBuilder, ?_, ?_⟩
    · obtain ⟨x, hx, hshown⟩ := Option.map_eq_some_iff.mp there
      obtain ⟨p, held, hassigned, hprofile, hheld⟩ := placed.holds h x hx
      rw [ProfileCells.profile, hheld, Option.getD_some] at hshown
      rw [origin, if_pos rfl, hassigned, start, hprofile, hshown]
      rfl
    · rw [settings, if_pos rfl]
      rfl
  | set there s => exact derived.set there s
  | _ => exact derived.frame hmade rfl (fun _ => rfl) fun _ => rfl

end Derived

theorem derived (ran : run steps = some w) : Derived steps w := by
  induction steps generalizing w with
  | nil =>
    cases ran
    intro b builder there
    simp at there
  | cons s earlier ih =>
    obtain ⟨w₁, hran, hmade⟩ := run_cons.mp ran
    exact (ih hran).step (counted hran) (placed hran) (taken hmade)

theorem exists_builder (ran : run steps = some w) {b : Nat} (made : b < builderCount steps) :
    ∃ first, w.start (origin b steps) = some first ∧
      w.builders[b]? = some (first.setAll (settings b steps)) := by
  have hlt : b < w.builders.length := by
    rw [(counted ran).builders]
    exact made
  have hlookup : w.builders[b]? = some w.builders[b] := List.getElem?_eq_getElem hlt
  obtain ⟨first, hstart, heq⟩ := derived ran b _ hlookup
  exact ⟨first, hstart, by rw [hlookup, heq]⟩

/-- A profile that is built now has for each field the last setting made for it, else that of the
    profile that the builder goes back to. -/
theorem setting_build (ran : run steps = some w) {b : Nat} {builder : ProfileBuilder}
    (there : w.builders[b]? = some builder) :
    ∃ source, w.source (origin b steps) = some source ∧
      ∀ f, builder.build.setting f = (lastFor f (settings b steps)).getD (source.setting f) := by
  obtain ⟨first, hstart, rfl⟩ := derived ran b builder there
  cases hfrom : origin b steps with
  | none =>
    rw [hfrom] at hstart
    cases hstart
    refine ⟨Profile.standard, rfl, ?_⟩
    intro f
    rw [ProfileBuilder.setting_build_setAll, ProfileBuilder.made?_blank]
    rfl
  | some p =>
    rw [hfrom] at hstart
    obtain ⟨profile, hprofile, rfl⟩ := Option.map_eq_some_iff.mp hstart
    refine ⟨profile, hprofile, ?_⟩
    intro f
    rw [ProfileBuilder.setting_build_setAll, Profile.made?_toBuilder]
    rfl

-- ============================================================================
-- What stays
-- ============================================================================

theorem keeps_profiles (ran : run (later ++ earlier) = some w) (before : run earlier = some w₀) :
    w₀.profiles <+: w.profiles := by
  induction later generalizing w with
  | nil =>
    rw [List.nil_append, before] at ran
    cases ran
    exact List.prefix_rfl
  | cons s later ih =>
    obtain ⟨w₁, hran, hmade⟩ := run_cons.mp ran
    exact (ih hran).trans (taken hmade).profiles

theorem handleCount_le_append (later earlier : List Step) :
    handleCount earlier ≤ handleCount (later ++ earlier) := by
  induction later with
  | nil => exact Nat.le_refl _
  | cons s later ih =>
    cases s with
    | handle p label => exact Nat.le_succ_of_le ih
    | clone original => exact Nat.le_succ_of_le ih
    | _ => exact ih

/-- A handle goes back to the same one for good. -/
theorem family_append {h : Nat} (later : List Step) (made : h < handleCount earlier) :
    family h (later ++ earlier) = family h earlier := by
  induction later with
  | nil => rfl
  | cons s later ih =>
    cases s with
    | clone original =>
      have hcount := handleCount_le_append later earlier
      rw [List.cons_append, family, if_neg (by omega)]
      exact ih
    | _ => exact ih

/-- A step changes what a handle shows only if it remaps one of its family. -/
theorem shown_step (ran : run earlier = some w) (made : Taken w s w') {h : Nat}
    (there : h < handleCount earlier)
    (apart : ∀ g p, s = .remap g p → family g earlier ≠ family h earlier) :
    w'.shown h = w.shown h := by
  have hlt : h < w.handles.length := by
    rw [(counted ran).handles]
    exact there
  have hlookup : w.handles[h]? = some w.handles[h] := List.getElem?_eq_getElem hlt
  obtain ⟨p, profile, -, -, hheld⟩ := (placed ran).holds h _ hlookup
  have hcell : (w.handles[h]).cell < w.cells.profiles.length :=
    (List.getElem?_eq_some_iff.mp hheld).1
  cases made with
  | handle other label =>
    show ((w.handles ++ [_])[h]?).map _ = _
    rw [List.getElem?_append_left hlt, shown, hlookup]
    show some ((w.cells.profiles ++ [_])[_]?.getD _) = some _
    rw [List.getElem?_append_left hcell]
    rfl
  | clone other =>
    show ((w.handles ++ [_])[h]?).map _ = _
    rw [List.getElem?_append_left hlt]
    rfl
  | @remap g p x profile hg hp =>
    have hne : x.cell ≠ (w.handles[h]).cell := by
      intro heq
      exact apart g p rfl (((placed ran).shared g h x _ hg hlookup).mp heq)
    show (w.handles[h]?).map _ = _
    rw [shown, hlookup]
    show some ((w.cells.profiles.set x.cell profile)[_]?.getD _) = some _
    rw [List.getElem?_set_ne hne]
    rfl
  | _ => rfl

/-- Only a handle that was made is remapped. -/
theorem lt_of_remap_mem (ran : run steps = some w) {g p : Nat} (remapped : .remap g p ∈ steps) :
    g < handleCount steps := by
  induction steps generalizing w with
  | nil => cases remapped
  | cons s earlier ih =>
    obtain ⟨w₁, hran, hmade⟩ := run_cons.mp ran
    have hcount : handleCount earlier ≤ handleCount (s :: earlier) :=
      handleCount_le_append [s] earlier
    rcases List.mem_cons.mp remapped with rfl | hmem
    · have hpossible := (isSome_step hran).mp (Option.isSome_of_eq_some hmade)
      exact Nat.lt_of_lt_of_le hpossible.1 hcount
    · exact Nat.lt_of_lt_of_le (ih hran hmem) hcount

/-- What a handle shows stays until one of its family is remapped. -/
theorem shown_append (ran : run (later ++ earlier) = some w) (before : run earlier = some w₀)
    {h : Nat} (made : h < handleCount earlier)
    (apart : ∀ g p, .remap g p ∈ later →
      family g (later ++ earlier) ≠ family h (later ++ earlier)) :
    w.shown h = w₀.shown h := by
  induction later generalizing w with
  | nil =>
    rw [List.nil_append, before] at ran
    cases ran
    rfl
  | cons s later ih =>
    obtain ⟨w₁, hran, hmade⟩ := run_cons.mp ran
    have hthere : h < handleCount (later ++ earlier) :=
      Nat.lt_of_lt_of_le made (handleCount_le_append later earlier)
    have hfamily : ∀ g, g < handleCount (later ++ earlier) →
        family g (s :: later ++ earlier) = family g (later ++ earlier) :=
      fun g => family_append [s]
    rw [shown_step hran (taken hmade) hthere]
    · apply ih hran
      intro g p hmem
      have hg := lt_of_remap_mem hran (List.mem_append_left earlier hmem)
      rw [← hfamily g hg, ← hfamily h hthere]
      exact apart g p (List.mem_cons_of_mem s hmem)
    · rintro g p rfl
      exact apart g p List.mem_cons_self

/-- A step changes a builder only by a setting made on it. -/
theorem builders_step (made : Taken w s w') {b : Nat} (there : b < w.builders.length)
    (unset : ∀ x, s ≠ .set b x) : w'.builders[b]? = w.builders[b]? := by
  cases made with
  | blank | copy | derive | deriveShown => exact List.getElem?_append_left there
  | @set c builder hc x =>
    have hne : c ≠ b := by
      rintro rfl
      exact unset x rfl
    exact List.getElem?_set_ne hne
  | _ => rfl

theorem builderCount_le_append (later earlier : List Step) :
    builderCount earlier ≤ builderCount (later ++ earlier) := by
  induction later with
  | nil => exact Nat.le_refl _
  | cons s later ih =>
    cases s with
    | blank => exact Nat.le_succ_of_le ih
    | copy b => exact Nat.le_succ_of_le ih
    | derive p => exact Nat.le_succ_of_le ih
    | deriveShown h => exact Nat.le_succ_of_le ih
    | _ => exact ih

/-- A builder stays until a setting is made on it. -/
theorem builders_append (ran : run (later ++ earlier) = some w) (before : run earlier = some w₀)
    {b : Nat} (made : b < builderCount earlier) (unset : ∀ x, .set b x ∉ later) :
    w.builders[b]? = w₀.builders[b]? := by
  induction later generalizing w with
  | nil =>
    rw [List.nil_append, before] at ran
    cases ran
    rfl
  | cons s later ih =>
    obtain ⟨w₁, hran, hmade⟩ := run_cons.mp ran
    have hthere : b < w₁.builders.length := by
      rw [(counted hran).builders]
      exact Nat.lt_of_lt_of_le made (builderCount_le_append later earlier)
    rw [builders_step (taken hmade) hthere]
    · exact ih hran fun x hmem => unset x (List.mem_cons_of_mem s hmem)
    · rintro x rfl
      exact unset x List.mem_cons_self

-- ============================================================================
-- The whole account
-- ============================================================================

/-- What the steps of a program tell of what there is in the end. -/
structure Account (steps : List Step) (w : Workshop) : Prop where
  /-- A step can be taken if all that it names was made. -/
  possible : ∀ s : Step, (w.step s).isSome ↔ s.Possible steps
  /-- A handle shows the profile that was assigned to its family last. -/
  shows : ∀ h, h < handleCount steps → ∃ p profile,
    assigned (family h steps) steps = some p ∧ w.profiles[p]? = some profile ∧
      w.shown h = some profile
  /-- So did each profile that was read from a handle. -/
  reads : ∀ later h earlier, steps = later ++ .read h :: earlier → ∃ p profile,
    assigned (family h earlier) earlier = some p ∧ w.profiles[p]? = some profile ∧
      w.profiles[profileCount earlier]? = some profile
  /-- A profile that was built has for each field the last setting made for it, else that of the
      profile that its builder goes back to. -/
  builds : ∀ later b earlier, steps = later ++ .build b :: earlier → ∃ profile source,
    w.profiles[profileCount earlier]? = some profile ∧
      w.source (origin b earlier) = some source ∧
      ∀ f, profile.setting f = (lastFor f (settings b earlier)).getD (source.setting f)
  /-- Builders that go back to the same profile build the same if for each field they have the
      same settings in the same order. -/
  orderFree : ∀ b, b < builderCount steps → ∀ c, c < builderCount steps →
    origin b steps = origin c steps →
    (∀ f, (settings b steps).filter (fun s => s.field = f) =
      (settings c steps).filter fun s => s.field = f) →
    (w.builders[b]?).map ProfileBuilder.build = (w.builders[c]?).map ProfileBuilder.build
  /-- Profiles stay for good. -/
  keepsProfiles : ∀ later earlier w₀, steps = later ++ earlier → run earlier = some w₀ →
    w₀.profiles <+: w.profiles
  /-- Builders stay until a setting is made on them. -/
  keepsBuilders : ∀ later earlier w₀, steps = later ++ earlier → run earlier = some w₀ →
    ∀ b, b < builderCount earlier → (∀ x, .set b x ∉ later) →
    w.builders[b]? = w₀.builders[b]?
  /-- Handles show what they did until one of their family is remapped. -/
  keepsHandles : ∀ later earlier w₀, steps = later ++ earlier → run earlier = some w₀ →
    ∀ h, h < handleCount earlier →
    (∀ g p, .remap g p ∈ later → family g steps ≠ family h steps) →
    w.shown h = w₀.shown h

/-- The profile that a step has made stays in its place. -/
theorem lookup_made (ran : run (later ++ s :: earlier) = some w) (before : run earlier = some w₀)
    {profile : Profile} (made : w₀.step s = some (w₀.addProfile profile)) :
    w.profiles[profileCount earlier]? = some profile := by
  have hafter : run (s :: earlier) = some (w₀.addProfile profile) :=
    run_cons.mpr ⟨w₀, before, made⟩
  apply lookup_of_prefix (keeps_profiles ran hafter)
  rw [← (counted before).profiles]
  exact List.getElem?_concat_length

theorem reads_of_run {h : Nat} (ran : run (later ++ .read h :: earlier) = some w) :
    ∃ p profile, assigned (family h earlier) earlier = some p ∧
      w.profiles[p]? = some profile ∧ w.profiles[profileCount earlier]? = some profile := by
  obtain ⟨w₂, hafter⟩ := run_append ran
  obtain ⟨w₁, hbefore, hmade⟩ := run_cons.mp hafter
  have hthere : h < handleCount earlier :=
    (isSome_step hbefore).mp (Option.isSome_of_eq_some hmade)
  obtain ⟨p, profile, hassigned, hprofile, hshown⟩ := shown_eq hbefore hthere
  have hread : w₁.step (.read h) = some (w₁.addProfile profile) := by
    rw [Workshop.step, hshown]
    rfl
  have hprofiles : w₁.profiles <+: w.profiles :=
    (taken hmade).profiles.trans (keeps_profiles ran hafter)
  exact ⟨p, profile, hassigned, lookup_of_prefix hprofiles hprofile, lookup_made ran hbefore hread⟩

theorem builds_of_run {b : Nat} (ran : run (later ++ .build b :: earlier) = some w) :
    ∃ profile source, w.profiles[profileCount earlier]? = some profile ∧
      w.source (origin b earlier) = some source ∧
      ∀ f, profile.setting f = (lastFor f (settings b earlier)).getD (source.setting f) := by
  obtain ⟨w₂, hafter⟩ := run_append ran
  obtain ⟨w₁, hbefore, hmade⟩ := run_cons.mp hafter
  have hthere : b < builderCount earlier :=
    (isSome_step hbefore).mp (Option.isSome_of_eq_some hmade)
  obtain ⟨first, -, hbuilder⟩ := exists_builder hbefore hthere
  obtain ⟨source, hsource, hfields⟩ := setting_build hbefore hbuilder
  have hbuilt : w₁.step (.build b) =
      some (w₁.addProfile (first.setAll (settings b earlier)).build) := by
    rw [Workshop.step, hbuilder]
    rfl
  have hprofiles : w₁.profiles <+: w.profiles :=
    (taken hmade).profiles.trans (keeps_profiles ran hafter)
  refine ⟨_, source, lookup_made ran hbefore hbuilt, ?_, hfields⟩
  cases hfrom : origin b earlier with
  | none =>
    rw [hfrom] at hsource
    exact hsource
  | some p =>
    rw [hfrom] at hsource
    exact lookup_of_prefix hprofiles hsource

/-- Whatever the steps of a program, what there is in the end is as they tell. -/
theorem told_by_steps (ran : run steps = some w) : Account steps w where
  possible _ := isSome_step ran
  shows _ := shown_eq ran
  reads later h earlier heq := reads_of_run (heq ▸ ran)
  builds later b earlier heq := builds_of_run (heq ▸ ran)
  orderFree b hb c hc hfrom hagree := by
    obtain ⟨first, hfirst, hbuilder⟩ := exists_builder ran hb
    obtain ⟨second, hsecond, hother⟩ := exists_builder ran hc
    rw [hfrom, hsecond] at hfirst
    cases hfirst
    rw [hbuilder, hother, Option.map_some, Option.map_some,
      ProfileBuilder.build_setAll_congr first hagree]
  keepsProfiles later earlier w₀ heq before := keeps_profiles (heq ▸ ran) before
  keepsBuilders later earlier w₀ heq before b made unset :=
    builders_append (heq ▸ ran) before made unset
  keepsHandles later earlier w₀ heq before h made apart := by
    subst heq
    exact shown_append ran before made apart

/-- Two handles of one profile, a clone of the first, and a remapping through the clone. -/
def remappedClone : List Step :=
  [.read 0, .remap 2 1, .clone 0, .handle 0 none, .handle 0 none, .build 1,
    .set 1 (.requestTimeout none), .derive 0, .build 0, .set 0 (.level .two), .blank]

theorem told_by_remapped_steps : ∃ w, run remappedClone = some w ∧ Account remappedClone w ∧
    w.shown 0 = w.profiles[1]? ∧ w.shown 1 = w.profiles[0]? :=
  ⟨_, rfl, told_by_steps rfl, rfl, rfl⟩

end Workshop

end RequestEngine
