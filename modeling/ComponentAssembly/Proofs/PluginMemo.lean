import ComponentAssembly.Proofs.PluginLookups

/-!
# Nobody can tell what a registry has found

A registry keeps the plugin types that it has found until something is registered.  Its replies to
requests are those of a registry that forgets before every request what it has found
(`Registry.Alike.replies`):

    replies qs r  =  repliesAnew qs r            the identity of what is shared apart

What is kept shows by that identity alone: between registrations, lookups of equal lower forms give the
same shared plugin type (`Registry.Reachable.memo_invisible`).
-/

namespace ComponentAssembly.Registry

/-- A registry with nothing found. -/
def forgetful (r : Registry) : Registry :=
  { r with found := [] }

/-- The replies to requests, one after the other. -/
def replies : List Request → Registry → Journal → List Reply
  | [], _, _ => []
  | q :: qs, r, j => (q.run r j).1.1.anonymous :: replies qs (q.run r j).1.2 (q.run r j).2

/-- The replies of a registry that forgets before every request what it has found. -/
def repliesAnew : List Request → Registry → Journal → List Reply
  | [], _, _ => []
  | q :: qs, r, j =>
    (q.run r.forgetful j).1.1.anonymous ::
      repliesAnew qs (q.run r.forgetful j).1.2 (q.run r.forgetful j).2

/-- Two registries differ at most in what they have found, all of which is up to date. -/
structure Alike (r t : Registry) : Prop where
  classes : t.classes = r.classes
  cache : t.cache = r.cache
  left : r.Coherent
  right : t.Coherent

variable {r t : Registry} {category key : String}

/-! ## Alike registries -/

theorem Alike.forgetful (h : r.Alike t) : r.Alike t.forgetful :=
  ⟨h.classes, h.cache, h.left, coherent_of_nothing rfl⟩

theorem Alike.answer (h : r.Alike t) (q : Request) : q.answer t = q.answer r := by
  have hresolve := resolve?_same h.classes h.cache
  unfold Request.answer listed
  rw [hresolve, h.cache]

theorem Alike.run (h : r.Alike t) (q : Request) (j k : Journal) :
    (q.run r j).1.1.anonymous = (q.run t k).1.1.anonymous ∧
      (q.run r j).1.2.Alike (q.run t k).1.2 := by
  obtain ⟨hanswer, hcoherent, hclasses, hcache⟩ := q.run_spec h.left j
  obtain ⟨hanswer', hcoherent', hclasses', hcache'⟩ := q.run_spec h.right k
  refine ⟨?_, ?_, ?_, hcoherent, hcoherent'⟩
  · rw [hanswer, hanswer', h.answer]
  · rw [hclasses, hclasses', h.classes]
  · rw [hcache, hcache', h.cache]

/-- Alike registries give the same replies, whether or not one of them forgets what it has found. -/
theorem Alike.replies (h : r.Alike t) (qs : List Request) (j k : Journal) :
    replies qs r j = repliesAnew qs t k := by
  induction qs generalizing r t j k with
  | nil => rfl
  | cons q qs ih =>
    obtain ⟨hreply, halike⟩ := h.forgetful.run q j k
    unfold Registry.replies repliesAnew
    rw [hreply, ih halike]

/-! ## What stays shared -/

theorem learns_after (hr : r.Coherent) {qs : List Request} (hqs : ∀ q ∈ qs, q.isLookup = true)
    (j : Journal) : r.Learns (after qs r j) := by
  induction qs generalizing r j with
  | nil => exact .refl r
  | cons q qs ih =>
    have hfirst := (q.run_lookup hr (hqs q List.mem_cons_self) j).2
    have hrest := ih (hfirst.coherent hr) (fun q hq => hqs q (List.mem_cons_of_mem _ hq))
    exact hfirst.trans (hrest (q.run r j).2)

theorem remembered?_congr {other name : String} (r : Registry)
    (hcategory : Text.lower other = Text.lower category) (hkey : Text.lower name = Text.lower key) :
    r.remembered? other name = r.remembered? category key := by
  unfold remembered?
  rw [hcategory, hkey]

/-- **Nobody can tell what a registry has found.**  A registry that requests lead to gives the replies
of one that forgets before every request what it has found.  A lookup gives the plugin type of the entry
and the class that are registered at the moment, and gives one as soon as both are there.  What a lookup
gave is shared: until something is registered, it is given for all spellings with the same lower
forms. -/
theorem Reachable.memo_invisible (h : r.Reachable) :
    (∀ qs j k, replies qs r j = repliesAnew qs r k) ∧
      (∀ category key j, (plugin? category key r j).1.1.map (·.plugin) =
        (plugin? category key r.forgetful j).1.1.map (·.plugin)) ∧
      (∀ category key j plugin, (plugin? category key r j).1.1.map (·.plugin) = some plugin ↔
        (r.cache.entries category).get? (Text.lower key) = some plugin.entry ∧
          r.class? plugin.entry.className = some plugin.pluginClass) ∧
      ∀ category key j p, (plugin? category key r j).1.1 = some p →
        ∀ qs : List Request, (∀ q ∈ qs, q.isLookup = true) →
          ∀ other name, Text.lower other = Text.lower category → Text.lower name = Text.lower key →
            ∀ k k', (plugin? other name (after qs (plugin? category key r j).1.2 k) k').1.1 = some p := by
  have hr := h.coherent
  have halike : r.Alike r := ⟨rfl, rfl, hr, hr⟩
  refine ⟨halike.replies, ?_, ?_, ?_⟩
  · intro category key j
    rw [(plugin?_spec hr category key j).1, (plugin?_spec halike.forgetful.right category key j).1]
    exact congrFun₂ (resolve?_same (r := r.forgetful) rfl rfl) category key
  · intro category key j plugin
    rw [(plugin?_spec hr category key j).1]
    exact resolve?_eq_some_iff
  · intro category key j p hp qs hqs other name hother hname k k'
    obtain ⟨-, hlearns, hfound⟩ := plugin?_spec hr category key j
    have hkept := (learns_after (hlearns.coherent hr) hqs k).kept category key p (hfound p hp)
    rw [← remembered?_congr _ hother hname] at hkept
    rw [plugin?_remembered hkept k']

/-- A console that was found stays the same under another spelling, also after its category was
listed. -/
theorem console_memo_invisible :
    let console := PluginClass.of ⟨"org.example.Console"⟩
    let r := ((Request.registerPlugin "Core" "Console" console).run {} {}).1.2
    let p : SharedPlugin := { id := 0, plugin := .ofClass "Console" "core" console }
    r.Reachable ∧ (plugin? "core" "console" r {}).1.1 = some p ∧
      (plugin? "CORE" "Console" (after [.plugins "core"] (plugin? "core" "console" r {}).1.2 {})
        {}).1.1 = some p := by
  intro console r p
  have hreachable : r.Reachable := .step .empty (.registerPlugin "Core" "Console" console) {}
  have hfound : (plugin? "core" "console" r {}).1.1 = some p := by decide +kernel
  have hlookups : ∀ q ∈ [Request.plugins "core"], q.isLookup = true := by
    rintro q hq
    rw [List.mem_singleton.mp hq]
    rfl
  refine ⟨hreachable, hfound, ?_⟩
  exact hreachable.memo_invisible.2.2.2 "core" "console" {} p hfound _ hlookups "CORE" "Console"
    (by decide +kernel) (by decide +kernel) {} {}

end ComponentAssembly.Registry
