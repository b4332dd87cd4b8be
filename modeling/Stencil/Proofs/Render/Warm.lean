import Stencil.Proofs.Render.Coupling
import Stencil.Proofs.Render.Library

/-!
# Engines that have rendered before

A render leaves the library of its engine richer than it was: sites have compiled their templates,
and shared functions have been read again. As long as the files stay as they are, this makes no
difference for later renders. Two libraries that were warmed up from one library, each by renders of
its own, belong together:

* What the common library had to use, both still have, under the same numbers of sites.
* What it had not, each may have compiled since, with sites of numbers that the common library did
  not have yet. All such sites may stand for one another, since whatever one of them finds for a
  file is what compiling the file now gives.
* The same goes for shared functions: both have those of the common library, or what reading them
  again gives. What has been read again is not read a third time.

Main definition: `Library.Warm`.
Main statements: `Library.warmInvariant` (renders keep a library warm), `Library.warmPair` (warm
libraries belong together).
-/

namespace Stencil

/-! ### Fresh sources -/

/-- What has just been opened has not changed since. -/
theorem openSource_unmodified {files : Files} {basePath : Option String} {name : String}
    {source : Source} (h : files.openSource basePath name = .ok source) :
    source.isModified files = false := by
  unfold Files.openSource at h
  -- from memory the version is the one just read, and from disk the time stamp
  split at h
  · unfold Files.openMemory at h
    dsimp only at h
    split at h
    · rename_i i entry hentry
      obtain rfl := Except.ok.inj h
      have hget := (MemoryFiles.entryOf?_eq_some_iff.mp hentry).2
      unfold Source.isModified
      simp [hget]
    · cases h
  · unfold Files.openDisk at h
    dsimp only at h
    split at h
    · rename_i file hfile
      obtain rfl := Except.ok.inj h
      unfold Source.isModified
      simp [hfile]
    · cases h

/-- What is compiled from a source that has not changed is not modified. -/
theorem compile_unmodified {config : Config} {files : Files} {source : Source}
    (hsource : source.isModified files = false) {first : Nat} {r : Compiled × Nat}
    (h : compile config files source first = .ok r) : r.1.isModified files = false := by
  unfold Compiled.isModified
  rw [List.any_eq_false]
  intro s hs
  have hs : s.isModified files = false :=
    compile_reads (fun _ _ => openSource_unmodified) hsource h s hs
  rw [hs]
  decide

namespace Library

variable {ctx : Context}

/-- What was just read again has not changed since. -/
theorem reopen_unmodified {root source : Source} (h : reopen ctx root = .ok source) :
    source.isModified ctx.files = false := by
  unfold reopen at h
  split at h
  · exact openSource_unmodified h
  · rename_i hname
    obtain rfl := Except.ok.inj h
    cases root with
    | string content cached => rfl
    | memory name entry content version => cases hname
    | disk name path stamp => cases hname

/-! ### Reading shared functions again -/

/-- Two libraries have alike shared functions, and no sites below a number are to come. -/
structure SharedAlike (ctx : Context) (sites : Nat → Nat → Prop) (from' : Nat)
    (l l' : Library) : Prop where
  size : from' ≤ l.sites.size
  size' : from' ≤ l'.sites.size
  functions : Assoc.Alike (TemplateFunction.Alike (ctx.config.likeness sites anySource))
    l.shared.functions l'.shared.functions

variable {sites : Nat → Nat → Prop} {from' : Nat} {l l' : Library}

/-- Alike templates are added to alike functions, or both are refused. -/
theorem add_agree {s s' : SharedFunctions} {unit unit' : Compiled} {R : Likeness}
    (hs : Assoc.Alike (TemplateFunction.Alike R) s.functions s'.functions)
    (hunit : Compiled.Alike R unit unit') (root : Source) :
    Agree (fun t t' => Assoc.Alike (TemplateFunction.Alike R) t.functions t'.functions ∧
        t.files = s.files ++ [⟨root, unit.sources⟩] ∧
        t'.files = s'.files ++ [⟨root, unit'.sources⟩])
      (s.add root unit) (s'.add root unit') := by
  unfold SharedFunctions.add
  have hcontains : s.functions.contains = s'.functions.contains :=
    funext fun key => hs.contains_eq key
  rw [hcontains, hunit.functions.keys_eq]
  split
  · exact .error _
  · exact .ok ⟨hs.insertAll hunit.functions, rfl, rfl⟩

/-- More sites change nothing about what is shared. -/
theorem SharedAlike.withSites (h : SharedAlike ctx sites from' l l') (count count' : Nat) :
    SharedAlike ctx sites from' (l.withSites count) (l'.withSites count') :=
  ⟨Nat.le_trans h.size (size_withSites_le count), Nat.le_trans h.size' (size_withSites_le count'),
    h.functions⟩

/-- Libraries that share alike share one more source alike. -/
theorem SharedAlike.share (h : SharedAlike ctx sites from' l l')
    (hsites : ∀ i j, from' ≤ i → from' ≤ j → sites i j) (source : Source) :
    Agree (SharedAlike ctx sites from') (l.share ctx source) (l'.share ctx source) := by
  -- what is compiled from one source is alike up to the numbers of its sites
  let R := ctx.config.likeness sites anySource
  have hunit : Agree (fun r r' => Compiled.Alike R r.1 r'.1)
      (Stencil.compile ctx.config ctx.files source l.sites.size)
      (Stencil.compile ctx.config ctx.files source l'.sites.size) :=
    compile_alike (ctx.config.likeness_covers_any ctx.files sites) ⟨⟩ fun k =>
      hsites _ _ (Nat.le_add_right_of_le h.size) (Nat.le_add_right_of_le h.size')
  have hcompile : Agree
      (fun q q' => Compiled.Alike R q.1 q'.1 ∧ SharedAlike ctx sites from' q.2 q'.2)
      (l.compile ctx source) (l'.compile ctx source) :=
    hunit.bind fun r r' hr => .ok ⟨hr, h.withSites r.2 r'.2⟩
  exact hcompile.bind fun q q' hq =>
    (add_agree hq.2.functions hq.1 source).bind fun _ _ ht => .ok ⟨hq.2.size, hq.2.size', ht.1⟩

/-- Reading the same sources again gives alike functions, or the same error. -/
theorem SharedAlike.foldlM_share (h : SharedAlike ctx sites from' l l')
    (hsites : ∀ i j, from' ≤ i → from' ≤ j → sites i j) (roots : List SharedFile) :
    Agree (SharedAlike ctx sites from')
      (roots.foldlM (fun fresh file => do fresh.share ctx (← reopen ctx file.root)) l)
      (roots.foldlM (fun fresh file => do fresh.share ctx (← reopen ctx file.root)) l') := by
  induction roots generalizing l l' with
  | nil => exact .ok h
  | cons file rest ih =>
    rw [List.foldlM_cons, List.foldlM_cons]
    refine Agree.bind (r := SharedAlike ctx sites from') ?_ fun _ _ hnext => ih hnext
    exact Agree.after fun root => h.share hsites root

/-- Libraries with the same files read them again alike. -/
theorem reload_agree (hsize : from' ≤ l.sites.size) (hsize' : from' ≤ l'.sites.size)
    (hsites : ∀ i j, from' ≤ i → from' ≤ j → sites i j)
    (hshared : l.shared.files = l'.shared.files) :
    Agree (SharedAlike ctx sites from') (l.reload ctx) (l'.reload ctx) := by
  rw [reload_eq, reload_eq, hshared]
  have hbare : SharedAlike ctx sites from' { l with shared := {} } { l' with shared := {} } :=
    ⟨hsize, hsize', .nil⟩
  exact hbare.foldlM_share hsites _

/-- What has been read again has not changed since. -/
theorem reload_unmodified (h : l.reload ctx = .ok l') :
    l'.shared.isModified ctx.files = false := by
  refine reload_induct (I := fun l => l.shared.isModified ctx.files = false) ?_ rfl h
  intro l root source next hopen hshare hl
  obtain ⟨unit, count, hunit, rfl⟩ := share_eq_ok hshare
  have hfresh : unit.sources.any (·.isModified ctx.files) = false :=
    compile_unmodified (reopen_unmodified hopen) hunit
  unfold SharedFunctions.isModified at hl ⊢
  dsimp only
  rw [List.any_append, hl, List.any_cons, hfresh]
  rfl

/-- Reading shared functions again makes place for sites and leaves what sites have compiled. -/
theorem sites_reload (h : l.reload ctx = .ok l') : l.sites.size ≤ l'.sites.size ∧
    ∀ site file, l'.compiledAt? site file = l.compiledAt? site file := by
  refine reload_induct (I := fun next => l.sites.size ≤ next.sites.size ∧
    ∀ site file, next.compiledAt? site file = l.compiledAt? site file) ?_
    ⟨Nat.le_refl _, fun _ _ => rfl⟩ h
  intro mid root source next _ hshare hmid
  obtain ⟨unit, count, _, rfl⟩ := share_eq_ok hshare
  refine ⟨Nat.le_trans hmid.1 (size_withSites_le count), fun site file => ?_⟩
  exact (compiledAt?_withSites mid count site file).trans (hmid.2 site file)

/-! ### Warm libraries -/

variable (ctx) in
/-- A library that renders have made of another one while the files were as they are. -/
structure Warm (base l : Library) : Prop where
  size : base.sites.size ≤ l.sites.size
  /-- What could be used can be used still. -/
  kept : ∀ {site file unit}, base.usable? ctx site file = some unit →
    l.usable? ctx site file = some unit
  /-- What could not be used has been compiled as the files are now, with sites of its own. -/
  fresh : ∀ {site file unit}, base.usable? ctx site file = none →
    l.usable? ctx site file = some unit → IsNow ctx base.sites.size file (.ok unit)
  /-- The shared functions are as they were, or they were modified and have been read again. -/
  shared : l.shared = base.shared ∨
    ((ctx.config.settings.devMode && base.shared.isModified ctx.files) = true ∧
      ∃ cold reloaded : Library, base.sites.size ≤ cold.sites.size ∧
        cold.shared = base.shared ∧ cold.reload ctx = .ok reloaded ∧ l.shared = reloaded.shared)

namespace Warm

variable {base : Library}

/-- Every library is warm as it begins. -/
theorem refl (base : Library) : Warm ctx base base where
  size := Nat.le_refl _
  kept h := h
  fresh hnone hsome := nomatch hnone.symm.trans hsome
  shared := .inl rfl

/-- A lookup of a site keeps a library warm. -/
theorem siteTemplate (h : Warm ctx base l) (site : Nat) (file : String) :
    Warm ctx base (l.siteTemplate ctx site file).2 where
  size := Nat.le_trans h.size (size_siteTemplate_le site file)
  kept hbase := usable?_siteTemplate_of_usable (h.kept hbase)
  fresh := by
    intro i name unit hbase hunit
    -- a template that is usable is kept, and otherwise one is compiled now
    cases hl : l.usable? ctx i name with
    | some kept =>
      rw [usable?_siteTemplate_of_usable hl] at hunit
      exact h.fresh hbase (hl.trans hunit)
    | none =>
      rcases compiledAt?_siteTemplate (compiledAt?_of_usable hunit) with hold | hnew
      · -- What was there and could not be used can be used no more than before.
        rw [usable?_eq_of_compiledAt?_eq
          ((compiledAt?_of_usable hunit).trans hold.symm)] at hunit
        rw [hl] at hunit
        cases hunit
      · obtain ⟨_, rfl, _, hnow⟩ := hnew
        exact ⟨_, h.size, hnow.symm⟩
  shared := by
    rw [shared_siteTemplate]
    exact h.shared

/-- Shared functions that have been read again are up to date. -/
theorem refreshed_of_reloaded {cold reloaded : Library} (hr : cold.reload ctx = .ok reloaded)
    (hl : l.shared = reloaded.shared) : l.refreshed ctx = .ok l := by
  unfold refreshed
  rw [hl, reload_unmodified hr, Bool.and_false]
  rfl

/-- The lookup of a shared function keeps a library warm. -/
theorem sharedFunction (h : Warm ctx base l) (name : String) :
    Warm ctx base (l.sharedFunction ctx name).2 := by
  have hrefreshed : ∀ {l'}, l.refreshed ctx = .ok l' → Warm ctx base l' := by
    intro l' hl'
    rcases h.shared with hbase | ⟨hmod, cold, reloaded, hcold, hshared, hreload, hl⟩
    · -- The functions are those of the common library: they are read again now, or not at all.
      unfold refreshed at hl'
      split at hl'
      · rename_i hmod
        obtain ⟨hsize, hsites⟩ := sites_reload hl'
        rw [hbase] at hmod
        exact
          { size := Nat.le_trans h.size hsize
            kept := fun hu => (usable?_eq_of_compiledAt?_eq (hsites _ _)).trans (h.kept hu)
            fresh := fun hu hunit =>
              h.fresh hu ((usable?_eq_of_compiledAt?_eq (hsites _ _)).symm.trans hunit)
            shared := .inr ⟨hmod, l, l', h.size, hbase, hl', rfl⟩ }
      · exact Except.ok.inj hl' ▸ h
    · -- They have been read again before, and once is enough while the files stay as they are.
      rw [refreshed_of_reloaded hreload hl] at hl'
      exact Except.ok.inj hl' ▸ h
  unfold Library.sharedFunction
  split
  · rename_i l' hl'
    exact hrefreshed hl'
  · exact h

/-- If the shared functions of the common library were modified, a lookup finds what reading them
again gives. -/
theorem functions_refreshed (h : Warm ctx base l)
    (hmod : (ctx.config.settings.devMode && base.shared.isModified ctx.files) = true) :
    ∃ cold : Library, base.sites.size ≤ cold.sites.size ∧ cold.shared = base.shared ∧
      (l.refreshed ctx).map (·.shared.functions) = (cold.reload ctx).map (·.shared.functions) := by
  rcases h.shared with hbase | ⟨_, cold, reloaded, hcold, hshared, hreload, hl⟩
  · refine ⟨l, h.size, hbase, ?_⟩
    unfold refreshed
    rw [hbase, if_pos hmod]
  · refine ⟨cold, hcold, hshared, ?_⟩
    rw [refreshed_of_reloaded hreload hl, hreload]
    change Except.ok l.shared.functions = Except.ok reloaded.shared.functions
    rw [hl]

/-- If they were not modified, they are found as they are. -/
theorem refreshed_of_unmodified (h : Warm ctx base l)
    (hmod : (ctx.config.settings.devMode && base.shared.isModified ctx.files) = false) :
    l.refreshed ctx = .ok l ∧ l.shared = base.shared := by
  rcases h.shared with hbase | ⟨hmod', _⟩
  · unfold refreshed
    rw [hbase, hmod]
    exact ⟨rfl, rfl⟩
  · rw [hmod] at hmod'
    cases hmod'

end Warm

/-- A run of any statement keeps a library warm, if it leaves the files as they are. -/
def warmInvariant (ctx : Context) (base : Library) : LibraryInvariant ctx.config where
  files f := f = ctx.files
  holds := Warm ctx base
  sharedFunction := by
    rintro _ l name rfl h
    exact h.sharedFunction name
  siteTemplate := by
    rintro _ l site file rfl h
    exact h.siteTemplate site file

/-- Sites may stand for one another if they are the same, or if both are new. -/
def NewFrom (from' i j : Nat) : Prop := i = j ∨ (from' ≤ i ∧ from' ≤ j)

/-- The answer to a lookup is that of the refreshed library. -/
theorem sharedFunction_fst (l : Library) (name : String) :
    (l.sharedFunction ctx name).1 =
      (l.refreshed ctx).map fun next => next.shared.functions.get? name := by
  unfold sharedFunction
  cases l.refreshed ctx <;> rfl

section Warm

variable {base : Library}

/-- Warm libraries look up alike functions. -/
theorem Warm.sharedFunction_agree (hbase : base.Draws ctx.config) (h : Warm ctx base l)
    (h' : Warm ctx base l') (name : String) :
    Agree (Option.Rel (TemplateFunction.Alike
        (ctx.config.likeness (NewFrom base.sites.size) anySource)))
      (l.sharedFunction ctx name).1 (l'.sharedFunction ctx name).1 := by
  rw [sharedFunction_fst, sharedFunction_fst]
  cases hmod : ctx.config.settings.devMode && base.shared.isModified ctx.files with
  | false =>
    obtain ⟨hl, hshared⟩ := h.refreshed_of_unmodified hmod
    obtain ⟨hl', hshared'⟩ := h'.refreshed_of_unmodified hmod
    rw [hl, hl']
    refine .ok ?_
    dsimp only
    rw [hshared, hshared']
    exact (hbase.shared _ fun _ => .inl rfl).get? name
  | true =>
    -- Both libraries find what reading the same sources gives, at one time or another.
    obtain ⟨cold, hsize, hshared, hl⟩ := h.functions_refreshed hmod
    obtain ⟨cold', hsize', hshared', hl'⟩ := h'.functions_refreshed hmod
    have hreload : Agree (SharedAlike ctx (NewFrom base.sites.size) base.sites.size)
        (cold.reload ctx) (cold'.reload ctx) :=
      reload_agree hsize hsize' (fun _ _ hi hj => .inr ⟨hi, hj⟩)
        (congrArg SharedFunctions.files (hshared.trans hshared'.symm))
    have hget : ∀ x : Except Error Library,
        (x.map fun next => next.shared.functions.get? name) =
          (x.map (·.shared.functions)).map fun functions => functions.get? name := by
      intro x
      cases x <;> rfl
    rw [hget, hget, hl, hl', ← hget, ← hget]
    generalize cold.reload ctx = x at hreload ⊢
    generalize cold'.reload ctx = x' at hreload ⊢
    cases hreload with
    | ok halike => exact .ok (halike.functions.get? name)
    | error e => exact .error e

/-- Warm libraries answer at sites with alike templates. -/
theorem Warm.siteTemplate_agree (hbase : base.Draws ctx.config) (h : Warm ctx base l)
    (h' : Warm ctx base l') {site site' : Nat} (hsite : NewFrom base.sites.size site site')
    (file : String) :
    Agree (Compiled.Alike (ctx.config.likeness (NewFrom base.sites.size) anySource))
      (l.siteTemplate ctx site file).1 (l'.siteTemplate ctx site' file).1 := by
  -- A site that the common library does not have has nothing to use in it.
  have hnew : ∀ {i}, base.sites.size ≤ i → base.usable? ctx i file = none := by
    intro i hi
    unfold usable? compiledAt?
    rw [Array.getElem?_eq_none hi]
    rfl
  cases hu : base.usable? ctx site file with
  | some unit =>
    -- Both sites are the one site that had a template to use, and both have it still.
    obtain rfl : site = site' := by
      rcases hsite with heq | ⟨hle, _⟩
      · exact heq
      · rw [hnew hle] at hu
        cases hu
    rw [siteTemplate_of_usable (h.kept hu), siteTemplate_of_usable (h'.kept hu)]
    exact .ok (hbase.sites (compiledAt?_of_usable hu) _ fun _ => .inl rfl)
  | none =>
    -- Neither site had anything to use, so what they answer with is compiled from the files as they
    -- are now, at sites that are new on both sides.
    have hu' : base.usable? ctx site' file = none := by
      rcases hsite with rfl | ⟨_, hle⟩
      · exact hu
      · exact hnew hle
    exact (siteTemplate_isNow h.size fun _ => h.fresh hu).agree
      (siteTemplate_isNow h'.size fun _ => h'.fresh hu') fun _ _ hi hj => .inr ⟨hi, hj⟩

/-- Two libraries that renders have made of one library belong together. -/
def warmPair (ctx : Context) (base : Library) (hbase : base.Draws ctx.config) :
    LibraryPair ctx.config where
  likeness := ctx.config.likeness (NewFrom base.sites.size) anySource
  files f := f = ctx.files
  joined l₁ l₂ := Warm ctx base l₁ ∧ Warm ctx base l₂
  sharedFunction := by
    rintro _ l₁ l₂ name rfl ⟨h₁, h₂⟩
    exact ⟨h₁.sharedFunction_agree hbase h₂ name, h₁.sharedFunction name, h₂.sharedFunction name⟩
  siteTemplate := by
    rintro _ l₁ l₂ site site' file rfl ⟨h₁, h₂⟩ hsite
    exact ⟨h₁.siteTemplate_agree hbase h₂ hsite file, h₁.siteTemplate site file,
      h₂.siteTemplate site' file⟩

end Warm

end Library

end Stencil
