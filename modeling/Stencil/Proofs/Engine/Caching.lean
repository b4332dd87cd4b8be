import Mathlib
import Stencil.Proofs.Engine.Session

/-!
# What the cache of a session holds

There are three ways to ask an engine for a template: by the name of a file, by a string, and by a
source that was opened before. Each of them has its own rule for the key that the template is cached
under (`Request.key?`), and some have none. In a session all of them may be mixed with changes of
the files, with renders, and with removals from the cache (`Act`).

What one act does to the cache is said once (`Session.act_cases`): it hands a template out, or it
leaves under every key what was there, except where it removes. By induction on the acts, an engine
without dev mode holds a template under a key from the lookup that compiled it until the next
removal of the key (`Session.cached_iff_kept`), and a new template has a number that no template
had before (`Session.numbered_acts`).

Main definitions: `Request`, `Act`, `Session.acts`, `Session.Kept`.
Main statement: `Session.production_cache`.
-/

namespace Stencil

/-- The size of a dictionary is the number of the keys that have a value. -/
theorem Assoc.encard_keys {α : Type} (m : Assoc α) :
    {key | ∃ value, m.get? key = some value}.encard = m.size := by
  have hset : {key | ∃ value, m.get? key = some value} = (m.keys.toFinset : Set String) := by
    ext key
    rw [Set.mem_ofPred_eq, ← Option.isSome_iff_exists, Assoc.isSome_get?_iff,
      Assoc.contains_iff_mem_keys, Finset.mem_coe, List.mem_toFinset]
  have hcard : m.keys.toFinset.card = m.keys.length := List.toFinset_card_of_nodup m.nodup
  rw [hset, Set.encard_coe_eq_coe_finsetCard, hcard]
  exact congrArg _ (List.length_map ..)

/-! ### Requests -/

/-- What an engine can be asked for. -/
inductive Request where
  /-- The template of a file. -/
  | file (name : String)
  /-- The template of a string. -/
  | text (content : String) (cached : Bool)
  /-- The template of a source. -/
  | source (source : Source)

namespace Request

/-- The key that the template of a request is cached under. -/
def key? : Request → Option String
  | file name => some name
  | text content cached => if cached then some content else none
  | source opened => opened.cacheKey?

/-- What an engine answers to a request. -/
def answer (engine : Engine) (files : Files) : Request → Except Error (Template × Engine)
  | file name => engine.getTemplate files name
  | text content cached => engine.getByString files content cached
  | source opened => engine.getBySource files opened

end Request

/-- The change of an engine that makes a new template. -/
structure Engine.Makes (engine : Engine) (t : Template) (after : Engine) : Prop where
  id : t.id = engine.nextTemplate
  next : after.nextTemplate = engine.nextTemplate + 1
  config : after.config = engine.config

section Answers

variable {engine after : Engine} {files : Files} {r : Request} {key : String} {t : Template}

/-- What is compiled is a template with the next number, and the cache does not notice. -/
theorem Engine.makes_of_compile {source : Source}
    (h : engine.compile files source = .ok (t, after)) :
    engine.Makes t after ∧ after.cache = engine.cache := by
  obtain ⟨unit, library, -, hr⟩ := Engine.compile_eq_ok h
  obtain ⟨rfl, rfl⟩ := Prod.mk.inj hr
  exact ⟨⟨rfl, rfl, rfl⟩, rfl⟩

/-- What is compiled for a key is also put into the cache, under this key. -/
theorem Engine.makes_of_compileInto {source : Source}
    (h : engine.compileInto files key source = .ok (t, after)) :
    engine.Makes t after ∧ after.cache = engine.cache.insert key t := by
  obtain ⟨engine', hcompile, hafter⟩ := Engine.compileInto_eq_ok h
  obtain ⟨hmakes, hcache⟩ := Engine.makes_of_compile hcompile
  dsimp only at hafter
  rw [hafter]
  exact ⟨⟨hmakes.id, hmakes.next, hmakes.config⟩, congrArg (·.insert key t) hcache⟩

/-- A request for a source goes past the cache if it has no key. -/
theorem Engine.getBySource_of_no_key {source : Source} (h : source.cacheKey? = none) :
    engine.getBySource files source = engine.compile files source := by
  unfold Engine.getBySource
  rw [h]

/-- A request for a source with a key is answered like one for a file. -/
theorem Engine.getBySource_of_key {source : Source} (h : source.cacheKey? = some key) :
    engine.getBySource files source =
      match engine.cached? files key with
      | some t => .ok (t, engine)
      | none => engine.compileInto files key source := by
  cases hcached : engine.cached? files key with
  | none => simp only [Engine.getBySource, h, hcached]
  | some t => simp only [Engine.getBySource, h, hcached]

/-- A usable template under the key of a request is the answer. -/
theorem Request.answer_of_cached (hkey : r.key? = some key)
    (ht : engine.cached? files key = some t) : r.answer engine files = .ok (t, engine) := by
  have hsource : ∀ {source : Source}, source.cacheKey? = some key →
      engine.getBySource files source = .ok (t, engine) := by
    intro source hsource
    rw [Engine.getBySource_of_key hsource, ht]
  cases r with
  | file name =>
    obtain rfl := Option.some.inj hkey
    exact Engine.getTemplate_of_cached? ht
  | text content cached => exact hsource hkey
  | source opened => exact hsource hkey

/-- **What answers a request**: the cache, or a new template. A new template is cached if the
request has a key, and nothing of use was under this key. -/
theorem Request.answer_eq_ok (h : r.answer engine files = .ok (t, after)) :
    (∃ key, r.key? = some key ∧ engine.cached? files key = some t ∧ after = engine) ∨
    (engine.Makes t after ∧
      ((r.key? = none ∧ after.cache = engine.cache) ∨
        ∃ key, r.key? = some key ∧ engine.cached? files key = none ∧
          after.cache = engine.cache.insert key t)) := by
  -- texts and sources are asked for in the same way, so one argument serves both
  have hsource : ∀ {source : Source}, engine.getBySource files source = .ok (t, after) →
      (∃ key, source.cacheKey? = some key ∧ engine.cached? files key = some t ∧
        after = engine) ∨
      (engine.Makes t after ∧
        ((source.cacheKey? = none ∧ after.cache = engine.cache) ∨
          ∃ key, source.cacheKey? = some key ∧ engine.cached? files key = none ∧
            after.cache = engine.cache.insert key t)) := by
    intro source h
    cases hkey : source.cacheKey? with
    | none =>
      rw [Engine.getBySource_of_no_key hkey] at h
      obtain ⟨hmakes, hcache⟩ := Engine.makes_of_compile h
      exact .inr ⟨hmakes, .inl ⟨rfl, hcache⟩⟩
    | some key =>
      rw [Engine.getBySource_of_key hkey] at h
      -- the cache may answer, or the source is compiled for its key
      split at h
      · rename_i kept hkept
        obtain ⟨rfl, rfl⟩ := Prod.mk.inj (Except.ok.inj h)
        exact .inl ⟨key, rfl, hkept, rfl⟩
      · rename_i hnone
        obtain ⟨hmakes, hcache⟩ := Engine.makes_of_compileInto h
        exact .inr ⟨hmakes, .inr ⟨key, rfl, hnone, hcache⟩⟩
  cases r with
  | file name =>
    rcases Engine.getTemplate_eq_ok h with ⟨hcached, hengine⟩ | ⟨hnone, source, -, hinto⟩
    · exact .inl ⟨name, rfl, hcached, hengine⟩
    -- a file is asked for by its name, which is its key
    · obtain ⟨hmakes, hcache⟩ := Engine.makes_of_compileInto hinto
      exact .inr ⟨hmakes, .inr ⟨name, rfl, hnone, hcache⟩⟩
  | text content cached => exact hsource h
  | source opened => exact hsource h

/-- Without dev mode whatever is in the cache may be used. -/
theorem Engine.cached?_of_production (h : engine.config.settings.devMode = false) :
    engine.cached? files key = engine.cache.get? key := by
  unfold Engine.cached?
  rw [h]
  cases engine.cache.get? key <;> rfl

end Answers

/-! ### Acts -/

/-- What can be done with a session: what can happen to it, and a request for the template of a
source that is at hand. -/
inductive Act where
  | event (e : Event)
  | getSource (source : Source)

namespace Act

/-- The request that an act makes. -/
def request? : Act → Option Request
  | event (.get name) => some (.file name)
  | event (.getText content cached) => some (.text content cached)
  | getSource source => some (.source source)
  | _ => none

/-- An act that removes what is cached under a key. -/
def Removes (key : String) : Act → Prop
  | event (.evict k) => k = key
  | event .clear => True
  | _ => False

/-- What asks for a template removes none. -/
theorem not_removes {a : Act} {r : Request} (h : a.request? = some r) (key : String) :
    ¬ a.Removes key := by
  cases a with
  | getSource source => exact id
  | event e =>
    cases e with
    | evict | clear => cases h
    | _ => exact id

end Act

namespace Session

variable (s : Session)

/-- What an act makes of a session. -/
def act : Act → Session
  | .event e => s.step e
  | .getSource source => s.take (s.engine.getBySource s.files source)

/-- What acts make of a session, one after the other. -/
def acts (history : List Act) : Session := history.foldl act s

/-- What a session answers to a request. -/
def answer (r : Request) : Except Error (Template × Engine) := r.answer s.engine s.files

variable {s} {a : Act} {r : Request} {key : String}

/-- Acts in a row are those in front and those behind them. -/
theorem acts_append (front back : List Act) :
    s.acts (front ++ back) = (s.acts front).acts back := List.foldl_append ..

theorem acts_concat (history : List Act) (a : Act) :
    s.acts (history ++ [a]) = (s.acts history).act a := List.foldl_append ..

/-- An act that asks for a template takes the answer. -/
theorem act_of_request (h : a.request? = some r) : s.act a = s.take (s.answer r) := by
  cases a with
  | getSource source =>
    obtain rfl := Option.some.inj h
    rfl
  | event e =>
    cases e with
    | get | getText =>
      obtain rfl := Option.some.inj h
      rfl
    | _ => cases h

/-- An act that hands no template out: it removes from the cache, or leaves the cache alone. -/
structure Passes (s : Session) (a : Act) : Prop where
  config : (s.act a).engine.config = s.engine.config
  next : (s.act a).engine.nextTemplate = s.engine.nextTemplate
  handed : (s.act a).handed = s.handed
  kept : ∀ {key}, ¬ a.Removes key →
    (s.act a).engine.cache.get? key = s.engine.cache.get? key
  removed : ∀ {key}, a.Removes key → (s.act a).engine.cache.get? key = none

/-- The session behind an act, where the act neither asks nor removes and leaves the engine its
cache. -/
theorem passes_of_eq (hengine : ∃ library, (s.act a).engine = { s.engine with library })
    (hhanded : (s.act a).handed = s.handed) (hremoves : ∀ key, ¬ a.Removes key) :
    s.Passes a := by
  obtain ⟨library, hengine⟩ := hengine
  refine ⟨?_, ?_, hhanded, ?_, fun {key} h => absurd h (hremoves key)⟩
  · rw [hengine]
  · rw [hengine]
  · intro key _
    rw [hengine]

/-- A render changes the library at most, so it passes the cache by. -/
theorem passes_of_rendered {template : Nat} {render : Template → Rendered}
    (hact : s.act a = s.rendered template render)
    (hengine : ∀ t, ∃ library, (render t).engine = { s.engine with library })
    (hremoves : ∀ key, ¬ a.Removes key) : s.Passes a := by
  unfold rendered at hact
  split at hact
  · rename_i t _
    refine passes_of_eq ?_ ?_ hremoves
    · rw [hact]
      exact hengine t
    · rw [hact]
  · refine passes_of_eq ⟨s.engine.library, ?_⟩ ?_ hremoves
    · rw [hact]
    · rw [hact]

/-- A request to share functions changes the library at most, whether it is granted or not. -/
theorem passes_of_adopted (source : Except Error Source)
    (hact : s.act a = s.adopt (do s.engine.share s.files (← source)))
    (hremoves : ∀ key, ¬ a.Removes key) : s.Passes a := by
  cases hshare : (do s.engine.share s.files (← source) : Except Error Engine) with
  | error e =>
    rw [hshare] at hact
    refine passes_of_eq ⟨s.engine.library, ?_⟩ ?_ hremoves
    · rw [hact]
      rfl
    · rw [hact]
      rfl
  | ok engine =>
    rw [hshare] at hact
    obtain ⟨source, -, hshare⟩ := bind_eq_ok_iff.mp hshare
    obtain ⟨library, -, hengine⟩ := bind_eq_ok_iff.mp hshare
    refine passes_of_eq ⟨library, ?_⟩ ?_ hremoves
    · rw [hact, ← Except.ok.inj hengine]
      rfl
    · rw [hact]
      rfl

/-- **One act.** It asks for a template and takes the answer, or it hands nothing out. -/
theorem act_cases (s : Session) (a : Act) :
    (∃ r t engine, a.request? = some r ∧ s.answer r = .ok (t, engine) ∧
      s.act a = { s with engine, handed := s.handed ++ [t] }) ∨ s.Passes a := by
  cases hr : a.request? with
  | some r =>
    have hact : s.act a = s.take (s.answer r) := act_of_request hr
    cases hanswer : s.answer r with
    | ok q =>
      rw [hanswer] at hact
      exact .inl ⟨r, q.1, q.2, rfl, hanswer, hact⟩
    | error e =>
      -- a request that fails leaves the engine as it was
      rw [hanswer] at hact
      refine .inr (passes_of_eq ⟨s.engine.library, ?_⟩ ?_ (Act.not_removes hr))
      · rw [hact]
        rfl
      · rw [hact]
        rfl
  | none =>
    refine .inr ?_
    cases a with
    | getSource source => cases hr
    | event e =>
      cases e with
      | get | getText => cases hr
      | store | remove | write | delete =>
        exact passes_of_eq ⟨s.engine.library, rfl⟩ rfl fun _ => id
      | evict k =>
        -- a key that is evicted is gone, and all others stay
        refine ⟨rfl, rfl, rfl, fun {key} hkey => ?_, fun {key} hkey => ?_⟩
        · change (s.engine.cache.erase k).get? key = _
          rw [Assoc.get?_erase, if_neg (Ne.symm hkey)]
        · change (s.engine.cache.erase k).get? key = _
          rw [Assoc.get?_erase, if_pos hkey.symm]
      | clear => exact ⟨rfl, rfl, rfl, fun hkey => absurd trivial hkey, fun _ => rfl⟩
      | shareFile name =>
        exact passes_of_adopted (s.engine.openSource s.files name) rfl fun _ => id
      | shareText content =>
        exact passes_of_adopted (.ok (.string content false)) rfl fun _ => id
      | render => exact passes_of_rendered rfl (fun _ => ⟨_, rfl⟩) fun _ => id
      | renderToFile =>
        refine passes_of_rendered rfl (fun _ => ?_) fun _ => id
        unfold Engine.renderToFile
        split
        · exact ⟨s.engine.library, rfl⟩
        · exact ⟨_, rfl⟩

/-! ### What is in the cache -/

/-- The templates of a session have numbers below the next one. -/
structure Numbered (config : Config) (s : Session) : Prop where
  settled : s.engine.config = config
  handed : ∀ {t}, t ∈ s.handed → t.id < s.engine.nextTemplate
  cache : ∀ {key t}, s.engine.cache.get? key = some t → t.id < s.engine.nextTemplate

variable {config : Config} {name : String} {files : Files} {history : List Act} {t : Template}
  {engine : Engine}

/-- A new session has handed out no template. -/
theorem Numbered.start (name : String) (config : Config) (files : Files) :
    Numbered config (.start name config files) where
  settled := rfl
  handed h := nomatch h
  cache h := nomatch h

/-- An act keeps the numbers of templates below the next one. -/
theorem Numbered.act (h : s.Numbered config) (a : Act) : (s.act a).Numbered config := by
  rcases s.act_cases a with ⟨r, t, engine, -, hanswer, hact⟩ | hpasses
  · rw [hact]
    rcases Request.answer_eq_ok hanswer with ⟨key, -, hcached, hengine⟩ | ⟨hmakes, hcache⟩
    · -- The answer of the cache has a number already.
      subst hengine
      refine ⟨h.settled, fun {t'} hmem => ?_, h.cache⟩
      rcases List.mem_append.mp hmem with hold | hnew
      · exact h.handed hold
      · rw [List.mem_singleton.mp hnew]
        exact h.cache (Engine.cached?_eq_some hcached).1
    -- a new template takes the next number, which is above all others
    · have hnext : engine.nextTemplate = s.engine.nextTemplate + 1 := hmakes.next
      have hid : t.id = s.engine.nextTemplate := hmakes.id
      refine ⟨hmakes.config.trans h.settled, fun {t'} hmem => ?_, fun {key t'} hget => ?_⟩
      · show t'.id < engine.nextTemplate
        rcases List.mem_append.mp hmem with hold | hnew
        · have hlt : t'.id < s.engine.nextTemplate := h.handed hold
          omega
        · rw [List.mem_singleton.mp hnew]
          omega
      · show t'.id < engine.nextTemplate
        change engine.cache.get? key = some t' at hget
        have hold : s.engine.cache.get? key = some t' → t'.id < engine.nextTemplate := by
          intro hold
          have hlt : t'.id < s.engine.nextTemplate := h.cache hold
          omega
        rcases hcache with ⟨-, hcache⟩ | ⟨key', -, -, hcache⟩
        · exact hold (hcache ▸ hget)
        · rw [hcache, Assoc.get?_insert] at hget
          split at hget
          · rw [← Option.some.inj hget]
            omega
          · exact hold hget
  -- what passes the cache by makes no template, and only removes some from the cache
  · refine ⟨hpasses.config.trans h.settled, fun {t} hmem => ?_, fun {key t} hget => ?_⟩
    · rw [hpasses.next]
      exact h.handed (hpasses.handed ▸ hmem)
    · rw [hpasses.next]
      by_cases hremoves : a.Removes key
      · rw [hpasses.removed hremoves] at hget
        cases hget
      · exact h.cache ((hpasses.kept hremoves).symm.trans hget)

/-- So does every history. -/
theorem Numbered.acts (h : s.Numbered config) (history : List Act) :
    (s.acts history).Numbered config := by
  induction history generalizing s with
  | nil => exact h
  | cons a rest ih => exact ih (h.act a)

/-- **Numbers.** What has been handed out, and what is in the cache, has a number below the next
one, in every session. -/
theorem numbered_acts (name : String) (config : Config) (files : Files) (history : List Act) :
    ((start name config files).acts history).Numbered config :=
  (Numbered.start name config files).acts history

/-- Without dev mode whatever is in the cache answers. -/
theorem Numbered.cached? (h : s.Numbered config) (hprod : config.settings.devMode = false)
    (key : String) : s.engine.cached? s.files key = s.engine.cache.get? key :=
  Engine.cached?_of_production (h.settled ▸ hprod)

/-- What is in the cache stays there, unless the act removes it. -/
theorem Numbered.kept_act (h : s.Numbered config) (hprod : config.settings.devMode = false)
    (hremoves : ¬ a.Removes key) (ht : s.engine.cache.get? key = some t) :
    (s.act a).engine.cache.get? key = some t := by
  rcases s.act_cases a with ⟨r, t', engine, -, hanswer, hact⟩ | hpasses
  · rw [hact]
    rcases Request.answer_eq_ok hanswer with ⟨key', -, -, hengine⟩ | ⟨-, hcache⟩
    · subst hengine
      exact ht
    · change engine.cache.get? key = some t
      rcases hcache with ⟨-, hcache⟩ | ⟨key', -, hnone, hcache⟩
      · rw [hcache]
        exact ht
      · -- A template is compiled for a key that the cache had no template for.
        have hne : key ≠ key' := by
          rintro rfl
          rw [h.cached? hprod, ht] at hnone
          cases hnone
        rw [hcache, Assoc.get?_insert, if_neg hne]
        exact ht
  · rw [hpasses.kept hremoves]
    exact ht

/-- This goes for a history in which no act removes the key. -/
theorem Numbered.kept_acts (h : s.Numbered config) (hprod : config.settings.devMode = false)
    (hhistory : ∀ a ∈ history, ¬ a.Removes key) (ht : s.engine.cache.get? key = some t) :
    (s.acts history).engine.cache.get? key = some t := by
  induction history generalizing s with
  | nil => exact ht
  | cons a rest ih =>
    have ha : ¬ a.Removes key := hhistory a (List.mem_cons_self ..)
    exact ih (h.act a) (fun a' ha' => hhistory a' (List.mem_cons_of_mem _ ha'))
      (h.kept_act hprod ha ht)

/-- An answer to a request with a key is in the cache. -/
theorem cache_of_answer (hkey : r.key? = some key)
    (hanswer : s.answer r = .ok (t, engine)) : engine.cache.get? key = some t := by
  rcases Request.answer_eq_ok hanswer with ⟨key', hkey', hcached, hengine⟩ | ⟨-, hcache⟩
  · obtain rfl := Option.some.inj (hkey.symm.trans hkey')
    subst hengine
    exact (Engine.cached?_eq_some hcached).1
  · rcases hcache with ⟨hnone, -⟩ | ⟨key', hkey', -, hcache⟩
    · rw [hkey] at hnone
      cases hnone
    · obtain rfl := Option.some.inj (hkey.symm.trans hkey')
      rw [hcache, Assoc.get?_insert, if_pos rfl]

/-- An act that compiles a template for a key: it asks with this key, and what it is handed is
new. -/
def Compiles (s : Session) (a : Act) (key : String) : Prop :=
  ∃ r t engine, a.request? = some r ∧ r.key? = some key ∧ s.answer r = .ok (t, engine) ∧
    t.id = s.engine.nextTemplate

/-- In a session a template was compiled for a key, and the key has not been removed since. -/
def Kept (name : String) (config : Config) (files : Files) (history : List Act) (key : String) :
    Prop :=
  ∃ before a since, history = before ++ a :: since ∧
    ((start name config files).acts before).Compiles a key ∧ ∀ b ∈ since, ¬ b.Removes key

/-- A template stays kept if the next act does not remove its key. -/
theorem Kept.concat (h : Kept name config files history key) (ha : ¬ a.Removes key) :
    Kept name config files (history ++ [a]) key := by
  obtain ⟨before, b, since, rfl, hcompiles, hsince⟩ := h
  refine ⟨before, b, since ++ [a], ?_, hcompiles, fun c hc => ?_⟩
  · rw [List.append_assoc, List.cons_append]
  · rcases List.mem_append.mp hc with hold | hnew
    · exact hsince c hold
    · rw [List.mem_singleton.mp hnew]
      exact ha

/-- What the cache has was compiled at some act of the history, and has been kept since. -/
theorem kept_of_cached (name : String) (config : Config) (files : Files) (history : List Act)
    (h : ((start name config files).acts history).engine.cache.get? key = some t) :
    Kept name config files history key := by
  -- by induction on the history: the last act has compiled the template, or it was there before
  induction history using List.reverseRecOn generalizing t with
  | nil => cases h
  | append_singleton history a ih =>
    rw [acts_concat] at h
    rcases ((start name config files).acts history).act_cases a with
      ⟨r, t', engine, hr, hanswer, hact⟩ | hpasses
    · rw [hact] at h
      change engine.cache.get? key = some t at h
      have hremoves : ¬ a.Removes key := Act.not_removes hr key
      rcases Request.answer_eq_ok hanswer with ⟨key', -, -, hengine⟩ | ⟨hmakes, hcache⟩
      · subst hengine
        exact (ih h).concat hremoves
      -- the act has compiled another template, or one that it does not cache, or this one
      · rcases hcache with ⟨-, hcache⟩ | ⟨key', hkey', -, hcache⟩
        · rw [hcache] at h
          exact (ih h).concat hremoves
        · by_cases hkey : key = key'
          · -- This act has compiled the template.
            subst hkey
            exact ⟨history, a, [], rfl, ⟨r, t', engine, hr, hkey', hanswer, hmakes.id⟩,
              fun b hb => nomatch hb⟩
          · rw [hcache, Assoc.get?_insert, if_neg hkey] at h
            exact (ih h).concat hremoves
    · by_cases hremoves : a.Removes key
      · rw [hpasses.removed hremoves] at h
        cases h
      · rw [hpasses.kept hremoves] at h
        exact (ih h).concat hremoves

/-- **What the cache holds.** Without dev mode there is a template under a key exactly if one was
compiled for the key that has not been removed since. -/
theorem cached_iff_kept (hprod : config.settings.devMode = false) :
    (∃ t, ((start name config files).acts history).engine.cache.get? key = some t) ↔
      Kept name config files history key := by
  constructor
  · rintro ⟨t, ht⟩
    exact kept_of_cached name config files history ht
  · rintro ⟨before, a, since, rfl, ⟨r, t, engine, hr, hkey, hanswer, -⟩, hsince⟩
    have hbefore := numbered_acts name config files before
    refine ⟨t, ?_⟩
    rw [acts_append]
    refine (hbefore.act a).kept_acts hprod hsince ?_
    rw [act_of_request hr, hanswer]
    exact cache_of_answer hkey hanswer

/-- **The cache without dev mode.** At any moment of any session of an engine without dev mode:

* What answers a request with a key answers every later request with this key, of any kind and
  whatever happened to the files and to the engine, as long as the key has not been removed.
* An act whose request fails changes nothing.
* A request without a key that is answered is answered with a new template: it is not one that was
  handed out or that is in the cache. The cache stays as it is.
* The size of the cache is the number of keys that a template was compiled for and that have not
  been removed since. -/
theorem production_cache (hprod : config.settings.devMode = false) {s : Session}
    (hs : s = (start name config files).acts history) :
    (∀ a r key t engine, a.request? = some r → r.key? = some key →
      s.answer r = .ok (t, engine) →
      ∀ between : List Act, (∀ b ∈ between, ¬ b.Removes key) →
      ∀ r' : Request, r'.key? = some key →
        ((s.act a).acts between).answer r' = .ok (t, ((s.act a).acts between).engine)) ∧
    (∀ a r error, a.request? = some r → s.answer r = .error error → s.act a = s) ∧
    (∀ a r t engine, a.request? = some r → r.key? = none → s.answer r = .ok (t, engine) →
      (∀ t' ∈ s.handed, t'.id ≠ t.id) ∧
      (∀ key t', s.engine.cache.get? key = some t' → t'.id ≠ t.id) ∧
      (s.act a).engine.cache = s.engine.cache) ∧
    (s.engine.cache.size : ℕ∞) = {key | Kept name config files history key}.encard := by
  have h : s.Numbered config := hs ▸ numbered_acts name config files history
  refine ⟨fun a r key t engine hr hkey hanswer between hbetween r' hkey' => ?_,
    fun a r error hr hanswer => ?_, fun a r t engine hr hkey hanswer => ?_, ?_⟩
  -- the request has put its template into the cache, where the acts in between leave it
  · have hact : (s.act a).engine.cache.get? key = some t := by
      rw [act_of_request hr, hanswer]
      exact cache_of_answer hkey hanswer
    have hlater := (h.act a).acts between
    have ht := (h.act a).kept_acts hprod hbetween hact
    exact Request.answer_of_cached hkey' ((hlater.cached? hprod key).trans ht)
  · rw [act_of_request hr, hanswer]
    rfl
  -- a request without a key is compiled anew, and what is new has the next number
  · rcases Request.answer_eq_ok hanswer with ⟨key, hkey', -⟩ | ⟨hmakes, hcache⟩
    · rw [hkey] at hkey'
      cases hkey'
    · have hid : t.id = s.engine.nextTemplate := hmakes.id
      refine ⟨fun t' hmem => ?_, fun key t' hget => ?_, ?_⟩
      · rw [hid]
        exact (h.handed hmem).ne
      · rw [hid]
        exact (h.cache hget).ne
      · rcases hcache with ⟨-, hcache⟩ | ⟨key', hkey', -⟩
        · rw [act_of_request hr, hanswer]
          exact hcache
        · rw [hkey] at hkey'
          cases hkey'
  -- the keys of the cache are the keys that are kept
  · rw [← Assoc.encard_keys, hs]
    refine congrArg Set.encard (Set.ext fun key => ?_)
    exact cached_iff_kept hprod

/-- A file that is written anew is not compiled anew, and the cache holds one template. -/
theorem production_cache_stale :
    let history : List Act := [.event (.store "a" "A"), .event (.get "a")]
    let s := (start "" {} { storage := .memory }).acts history
    (∃ t engine, s.answer (.file "a") = .ok (t, engine) ∧
      ((s.act (.event (.get "a"))).acts [.event (.store "a" "B")]).answer (.file "a") =
        .ok (t, ((s.act (.event (.get "a"))).acts [.event (.store "a" "B")]).engine)) ∧
      {key | Kept "" {} { storage := .memory } history key}.encard = 1 := by
  intro history s
  have hprod : ({} : Config).settings.devMode = false := rfl
  have hs : s = (start "" {} { storage := .memory }).acts history := rfl
  obtain ⟨hsame, -, -, hsize⟩ := production_cache hprod hs
  -- evaluated once: the request is granted, and is the only one in the cache
  have hok : (s.answer (.file "a")).isOk = true := by
    simp only [s, history]
    cbv
  have hone : s.engine.cache.size = 1 := by
    simp only [s, history]
    cbv
  constructor
  · cases hanswer : s.answer (.file "a") with
    | error error =>
      rw [hanswer] at hok
      cases hok
    | ok q =>
      refine ⟨q.1, q.2, rfl, ?_⟩
      exact hsame (.event (.get "a")) (.file "a") "a" q.1 q.2 rfl rfl hanswer
        [.event (.store "a" "B")] (fun b hb => by
          rw [List.mem_singleton.mp hb]
          exact id) (.file "a") rfl
  · rw [← hsize, hone]
    rfl

end Session

end Stencil
