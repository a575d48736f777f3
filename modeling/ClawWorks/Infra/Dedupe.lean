import ClawWorks.Js.Object
import Mathlib.Data.List.Infix
import Mathlib.Data.Rat.Floor
import Mathlib.Tactic.Linarith

/-!
# The dedupe cache

The entries of the map stand in the order of their last check. From its last check on a key splits them into those that
were there before and those checked since (`Placed`), until it has expired or is the one too many.
-/

namespace ClawWorks.Infra

open List JsMap

/-- A value that is not finite falls back. -/
def resolveNonNegativeIntegerOption (value : Option ℚ) (fallback : ℕ) : ℕ :=
  (value.map fun v => ⌊v⌋₊).getD fallback

/-- The options of a cache, none for numbers that are not finite. -/
structure DedupeCacheOptions where
  ttlMs : Option ℚ
  maxSize : Option ℚ

namespace DedupeCacheOptions

variable (options : DedupeCacheOptions)

def ttl : ℕ := resolveNonNegativeIntegerOption options.ttlMs 0

def max : ℕ := resolveNonNegativeIntegerOption options.maxSize 0

/-- `ttlMs > 0 && now - existing >= ttlMs`. -/
def Expired (existing now : ℚ) : Prop :=
  0 < options.ttl ∧ options.ttl ≤ now - existing

instance (existing now : ℚ) : Decidable (options.Expired existing now) :=
  inferInstanceAs (Decidable (_ ∧ _))

end DedupeCacheOptions

/-- The times of the keys. -/
abbrev DedupeCache := JsMap JsString ℚ

variable (cache : DedupeCache)

/-- `cache.delete(key)`. -/
def delete (key : JsString) : DedupeCache :=
  cache.filter (·.1 ≠ key)

def touch (key : JsString) (now : ℚ) : DedupeCache :=
  (delete cache key).set key now

def pruneMapToMaxSize (maxSize : ℕ) : DedupeCache :=
  if maxSize = 0 then [] else cache.drop (cache.length - maxSize)

section Cache

variable (options : DedupeCacheOptions) (cache : DedupeCache)

def prune (now : ℚ) : DedupeCache :=
  let cache := if 0 < options.ttl then cache.filter (now - options.ttl ≤ ·.2) else cache
  if options.max = 0 then [] else pruneMapToMaxSize cache options.max

/-- The answer, and the cache behind it. -/
def hasUnexpired (key : JsString) (now : ℚ) (touchOnRead : Bool) : Bool × DedupeCache :=
  match cache.get key with
  | none => (false, cache)
  | some existing =>
    if options.Expired existing now then (false, delete cache key)
    else (true, if touchOnRead then touch cache key now else cache)

/-- `undefined` and `null` are keys like the empty one. -/
def check (key : JsString) (now : ℚ) : Bool × DedupeCache :=
  if key = [] then (false, cache)
  else
    let (known, cache) := hasUnexpired options cache key now true
    if known then (true, cache) else (false, prune options (touch cache key now) now)

def peek (key : JsString) (now : ℚ) : Bool × DedupeCache :=
  if key = [] then (false, cache) else hasUnexpired options cache key now false

inductive Call
  | check (key : JsString) (now : ℚ)
  | peek (key : JsString) (now : ℚ)
  | delete (key : JsString)
  | clear

def perform : Call → DedupeCache
  | .check key now => (check options cache key now).2
  | .peek key now => (peek options cache key now).2
  | .delete key => if key = [] then cache else delete cache key
  | .clear => []

/-- The cache after a sequence of calls. -/
def run (calls : List Call) : DedupeCache :=
  calls.foldl (perform options) []

end Cache

/-- The call is made at the time. -/
def Call.At (now : ℚ) : Call → Prop
  | .check _ t | .peek _ t => t = now
  | .delete _ | .clear => False

def Call.checks (key : JsString) : Call → Bool
  | .check k _ => k = key && k ≠ []
  | _ => false

/-- A check of the key, or what removes it. -/
def Call.renews (key : JsString) : Call → Bool
  | .check k _ | .delete k => k = key
  | .peek _ _ => false
  | .clear => true

/-- How many other keys that were checked by some calls a cache holds. -/
def othersHeld (key : JsString) (calls : List Call) (cache : DedupeCache) : ℕ :=
  cache.countP fun entry => entry.1 ≠ key && calls.any (·.checks entry.1)

/-- The key was last checked by the call behind `before`. -/
structure LastChecked (calls : List Call) (key : JsString) (before : List Call) (t : ℚ) (after : List Call) : Prop where
  split : calls = before ++ .check key t :: after
  last : ∀ call ∈ after, call.renews key = false

/-! ## One call -/

variable {options : DedupeCacheOptions} {cache : DedupeCache} {calls : List Call} {call : Call} {key k : JsString}
  {t now : ℚ}

theorem touch_eq (cache : DedupeCache) (key : JsString) (now : ℚ) :
    touch cache key now = delete cache key ++ [(key, now)] :=
  set_of_get_none (get_eq_none_iff.mpr (by simp [delete])) now

theorem length_prune_le : (prune options cache now).length ≤ options.max := by
  simp only [prune, pruneMapToMaxSize]
  split_ifs <;> simp <;> omega

/-- Deleting what has expired makes no difference to a check. -/
theorem check_cases (options) (cache : DedupeCache) (now) (hk : k ≠ []) :
    (∃ existing, cache.get k = some existing ∧ ¬ options.Expired existing now ∧
      check options cache k now = (true, touch cache k now)) ∨
    (∀ existing, cache.get k = some existing → options.Expired existing now) ∧
      check options cache k now = (false, prune options (touch cache k now) now) := by
  rw [check, if_neg hk, hasUnexpired]
  cases hget : cache.get k with
  | none => exact .inr ⟨fun _ h => (nomatch h), rfl⟩
  | some existing =>
    by_cases hexpired : options.Expired existing now
    · have hdelete : delete (delete cache k) k = delete cache k := by simp [delete]
      exact .inr ⟨fun _ h => Option.some.inj h ▸ hexpired, by simp [hexpired, touch, hdelete]⟩
    · exact .inl ⟨existing, rfl, hexpired, by simp [hexpired]⟩

theorem peek_cases (options) (cache : DedupeCache) (now) (hk : k ≠ []) :
    (∃ existing, cache.get k = some existing ∧ ¬ options.Expired existing now ∧
      peek options cache k now = (true, cache)) ∨
    (∀ existing, cache.get k = some existing → options.Expired existing now) ∧
      peek options cache k now = (false, if (cache.get k).isSome then delete cache k else cache) := by
  rw [peek, if_neg hk, hasUnexpired]
  cases hget : cache.get k with
  | none => exact .inr ⟨fun _ h => (nomatch h), rfl⟩
  | some existing =>
    by_cases hexpired : options.Expired existing now
    · exact .inr ⟨fun _ h => Option.some.inj h ▸ hexpired, by simp [hexpired]⟩
    · exact .inl ⟨existing, rfl, hexpired, by simp [hexpired]⟩

theorem mem_touch {entry : JsString × ℚ} (h : entry ∈ touch cache k now) :
    (entry ∈ cache ∧ k ≠ entry.1) ∨ entry = (k, now) := by
  simp only [touch_eq, delete, mem_append, mem_filter, mem_singleton] at h
  exact h.imp_left fun ⟨hmem, hne⟩ => ⟨hmem, Ne.symm (by simpa using hne)⟩

theorem mem_of_mem_prune {entry : JsString × ℚ} (h : entry ∈ prune options cache now) : entry ∈ cache := by
  by_cases hmax : options.max = 0
  · simp [prune, hmax] at h
  · rw [prune, if_neg hmax, pruneMapToMaxSize, if_neg hmax] at h
    have hdrop := mem_of_mem_drop h
    split_ifs at hdrop
    · exact mem_of_mem_filter hdrop
    · exact hdrop

theorem mem_perform {entry : JsString × ℚ} (hne : entry.1 ≠ []) (h : entry ∈ perform options cache call) :
    (entry ∈ cache ∧ call.renews entry.1 = false) ∨ call = .check entry.1 entry.2 := by
  cases call with
  | check k u =>
    by_cases hk : k = []
    · exact .inl ⟨by simpa [perform, check, hk] using h, by simpa [Call.renews, hk] using hne.symm⟩
    have hmem : entry ∈ touch cache k u := by
      rcases check_cases options cache u hk with ⟨-, -, -, heq⟩ | ⟨-, heq⟩
      · simpa [perform, heq] using h
      · exact mem_of_mem_prune (by simpa [perform, heq] using h)
    exact (mem_touch hmem).imp (fun ⟨hmem, hother⟩ => ⟨hmem, by simpa [Call.renews] using hother⟩) fun heq => by rw [heq]
  | peek k u =>
    refine .inl ⟨?_, rfl⟩
    by_cases hk : k = []
    · simpa [perform, peek, hk] using h
    rcases peek_cases options cache u hk with ⟨-, -, -, heq⟩ | ⟨-, heq⟩
    · simpa [perform, heq] using h
    · rw [perform, heq] at h
      split_ifs at h
      · exact mem_of_mem_filter h
      · exact h
  | delete k =>
    by_cases hk : k = []
    · exact .inl ⟨by simpa [perform, hk] using h, by simpa [Call.renews, hk] using hne.symm⟩
    · simp only [perform, if_neg hk, delete, mem_filter] at h
      exact .inl ⟨h.1, decide_eq_false (Ne.symm (by simpa using h.2))⟩
  | clear => exact absurd h not_mem_nil

theorem length_perform_le (h : cache.length ≤ options.max) : (perform options cache call).length ≤ options.max := by
  have hdelete : ∀ k, (delete cache k).length ≤ options.max := fun k => (length_filter_le ..).trans h
  cases call with
  | check k u =>
    by_cases hk : k = []
    · simpa [perform, check, hk] using h
    rcases check_cases options cache u hk with ⟨existing, hget, -, heq⟩ | ⟨-, heq⟩
    · have hlt : (delete cache k).length < cache.length :=
        length_filter_lt_length_iff_exists.mpr ⟨_, mem_of_get hget, by simp⟩
      simpa [perform, heq, touch_eq] using Nat.succ_le_of_lt (hlt.trans_le h)
    · simpa [perform, heq] using length_prune_le
  | peek k u =>
    by_cases hk : k = []
    · simpa [perform, peek, hk] using h
    rcases peek_cases options cache u hk with ⟨-, -, -, heq⟩ | ⟨-, heq⟩
    · simpa [perform, heq] using h
    · rw [perform, heq]
      split_ifs
      · exact hdelete k
      · exact h
  | delete k =>
    rw [perform]
    split_ifs
    · exact h
    · exact hdelete k
  | clear => exact Nat.zero_le _

theorem length_run_le (calls : List Call) : (run options calls).length ≤ options.max := by
  induction calls using List.reverseRecOn with
  | nil => exact Nat.zero_le _
  | append_singleton calls call ih => simpa [run] using length_perform_le ih

/-! ## Since a check -/

/-- The key stands between the entries that were not checked by the calls and those that were. -/
def Placed (key : JsString) (t : ℚ) (calls : List Call) (cache : DedupeCache) : Prop :=
  ∃ pre post, cache = pre ++ (key, t) :: post ∧
    (∀ entry ∈ pre, entry.1 ≠ key ∧ calls.any (·.checks entry.1) = false) ∧
    ∀ entry ∈ post, entry.1 ≠ key ∧ calls.any (·.checks entry.1)

theorem Placed.get (h : Placed key t calls cache) : cache.get key = some t := by
  obtain ⟨pre, post, rfl, hpre, -⟩ := h
  induction pre with
  | nil => simp [JsMap.get]
  | cons entry pre ih =>
    rw [cons_append, JsMap.get, if_neg (hpre entry mem_cons_self).1]
    exact ih fun entry' hmem => hpre entry' (mem_cons_of_mem _ hmem)

theorem Placed.othersHeld_lt (h : Placed key t calls cache) : othersHeld key calls cache < cache.length := by
  obtain ⟨pre, post, rfl, hpre, -⟩ := h
  have hnone : pre.countP (fun entry => entry.1 ≠ key && calls.any (·.checks entry.1)) = 0 :=
    countP_eq_zero.mpr fun entry hmem => by simp [(hpre entry hmem).2]
  rw [othersHeld, countP_append, hnone, countP_cons_of_neg (by simp), length_append, length_cons]
  have := countP_le_length (p := fun entry => entry.1 ≠ key && calls.any (·.checks entry.1)) (l := post)
  omega

theorem Placed.filter (h : Placed key t calls cache) {p : JsString × ℚ → Bool} (hp : p (key, t)) :
    Placed key t calls (cache.filter p) := by
  obtain ⟨pre, post, rfl, hpre, hpost⟩ := h
  refine ⟨pre.filter p, post.filter p, by simp [hp], fun entry hmem => ?_, fun entry hmem => ?_⟩
  · exact hpre entry (mem_of_mem_filter hmem)
  · exact hpost entry (mem_of_mem_filter hmem)

theorem Placed.called (h : Placed key t calls cache) (hchecks : ∀ entry ∈ cache, call.checks entry.1 = false) :
    Placed key t (calls ++ [call]) cache := by
  obtain ⟨pre, post, rfl, hpre, hpost⟩ := h
  refine ⟨pre, post, rfl, fun entry hmem => ?_, fun entry hmem => ?_⟩
  · have hnot := hchecks entry (mem_append_left _ hmem)
    exact ⟨(hpre entry hmem).1, by simp [(hpre entry hmem).2, hnot]⟩
  · exact ⟨(hpost entry hmem).1, by simp [(hpost entry hmem).2]⟩

theorem Placed.touch (h : Placed key t calls cache) (hk : k ≠ key) (hne : k ≠ []) :
    Placed key t (calls ++ [.check k now]) (touch cache k now) := by
  have hothers : ∀ entry ∈ delete cache k, (Call.check k now).checks entry.1 = false := fun entry hmem =>
    by simp [Call.checks, Ne.symm (show entry.1 ≠ k by simpa using (mem_filter.mp hmem).2)]
  obtain ⟨pre, post, heq, hpre, hpost⟩ := (h.filter (p := (·.1 ≠ k)) (by simpa using hk.symm)).called hothers
  rw [touch_eq, delete, heq]
  refine ⟨pre, post ++ [(k, now)], by simp, hpre, fun entry hmem => ?_⟩
  rcases mem_append.mp hmem with hmem | hmem
  · exact hpost entry hmem
  · rw [mem_singleton.mp hmem]
    exact ⟨hk, by simp [Call.checks, hne]⟩

/-- Only what has expired goes with its age, and only a key before `max` others with the size. -/
theorem Placed.prune (h : Placed key t calls cache) (hmax : 0 < options.max) :
    Placed key t calls (prune options cache now) ∨ key ∉ (prune options cache now).map (·.1) ∧
        (options.Expired t now ∨ options.max ≤ othersHeld key calls (prune options cache now)) := by
  rw [Infra.prune, if_neg hmax.ne', pruneMapToMaxSize, if_neg hmax.ne']
  generalize hkept : (if 0 < options.ttl then cache.filter (now - options.ttl ≤ ·.2) else cache) = kept
  by_cases hexpired : 0 < options.ttl ∧ t < now - options.ttl
  · refine .inr ⟨fun hmem => ?_, .inl ⟨hexpired.1, by linarith [hexpired.2]⟩⟩
    obtain ⟨entry, hmem, hkey⟩ := mem_map.mp hmem
    have hfilter := mem_of_mem_drop hmem
    rw [← hkept, if_pos hexpired.1, mem_filter, decide_eq_true_eq] at hfilter
    obtain ⟨pre, post, rfl, hpre, hpost⟩ := h
    rcases mem_append.mp hfilter.1 with hin | hin
    · exact (hpre entry hin).1 hkey
    rcases mem_cons.mp hin with rfl | hin
    · exact absurd hexpired.2 (not_lt.mpr hfilter.2)
    · exact (hpost entry hin).1 hkey
  have hplaced : Placed key t calls kept := by
    rw [← hkept]
    split_ifs with httl
    · exact h.filter (by simpa using not_lt.mp fun hlt => hexpired ⟨httl, hlt⟩)
    · exact h
  obtain ⟨pre, post, rfl, hpre, hpost⟩ := hplaced
  rcases le_or_gt ((pre ++ (key, t) :: post).length - options.max) pre.length with hle | hgt
  · refine .inl ⟨pre.drop _, post, drop_append_of_le_length hle, fun entry hmem => ?_, hpost⟩
    exact hpre entry (mem_of_mem_drop hmem)
  · obtain ⟨count, hcount⟩ := Nat.exists_eq_add_of_lt hgt
    have hdrop : drop ((pre ++ (key, t) :: post).length - options.max) (pre ++ (key, t) :: post) = post.drop count := by
      rw [hcount, Nat.add_assoc, drop_append, drop_eq_nil_of_le (by omega), nil_append, Nat.add_sub_cancel_left,
        drop_succ_cons]
    rw [hdrop]
    refine .inr ⟨fun hmem => ?_, .inr ?_⟩
    · obtain ⟨entry, hmem, hkey⟩ := mem_map.mp hmem
      exact (hpost entry (mem_of_mem_drop hmem)).1 hkey
    · have hall : ∀ entry ∈ post.drop count, (entry.1 ≠ key && calls.any (·.checks entry.1)) = true := fun entry hmem =>
        by simpa using hpost entry (mem_of_mem_drop hmem)
      rw [othersHeld, countP_eq_length.mpr hall, length_drop]
      simp only [length_append, length_cons] at hcount
      omega

/-- A call that does not renew the key leaves it placed, unless it has expired or is the one too many. -/
theorem Placed.perform (h : Placed key t calls cache) (hmax : 0 < options.max) (hother : call.renews key = false) :
    Placed key t (calls ++ [call]) (perform options cache call) ∨ key ∉ (perform options cache call).map (·.1) ∧
        ((∃ u, call.At u ∧ options.Expired t u) ∨
          options.max ≤ othersHeld key (calls ++ [call]) (perform options cache call)) := by
  cases call with
  | check k u =>
    have hk : k ≠ key := by simpa [Call.renews] using hother
    by_cases hne : k = []
    · simpa [Infra.perform, check, hne] using .inl (h.called fun entry _ => by simp [Call.checks])
    rcases check_cases options cache u hne with ⟨-, -, -, heq⟩ | ⟨-, heq⟩
    · exact .inl (by simpa [Infra.perform, heq] using h.touch hk hne)
    · rw [Infra.perform, heq]
      exact ((h.touch hk hne).prune hmax).imp_right (And.imp_right (.imp_left fun hexpired => ⟨u, rfl, hexpired⟩))
  | peek k u =>
    have hcalled : Placed key t (calls ++ [.peek k u]) cache := h.called fun _ _ => rfl
    by_cases hne : k = []
    · exact .inl (by simpa [Infra.perform, peek, hne] using hcalled)
    rcases peek_cases options cache u hne with ⟨-, -, -, heq⟩ | ⟨hexpired, heq⟩
    · exact .inl (by simpa [Infra.perform, heq] using hcalled)
    rw [Infra.perform, heq]
    by_cases hk : k = key
    · refine .inr ⟨?_, .inl ⟨u, rfl, hexpired t (hk ▸ h.get)⟩⟩
      simp [hk, h.get, delete]
    · split_ifs
      · exact .inl (hcalled.filter (by simpa using Ne.symm hk))
      · exact .inl hcalled
  | delete k =>
    have hk : k ≠ key := by simpa [Call.renews] using hother
    have hcalled : Placed key t (calls ++ [.delete k]) cache := h.called fun _ _ => rfl
    rw [Infra.perform]
    split_ifs
    · exact .inl hcalled
    · exact .inl (hcalled.filter (by simpa using hk.symm))
  | clear => exact absurd hother (by simp [Call.renews])

/-! ## Runs -/

/-- The key was last checked less than the time to live ago, and no `max` other keys were checked since and held. -/
def Known (options : DedupeCacheOptions) (calls : List Call) (key : JsString) (now : ℚ) : Prop :=
  ∃ before t after, LastChecked calls key before t after ∧ (options.ttl = 0 ∨ now - t < options.ttl) ∧
    ∀ done, done <+: after → othersHeld key done (run options (before ++ .check key t :: done)) < options.max

theorem placed_checked (hmax : 0 < options.max) (hkey : key ≠ []) (cache : DedupeCache) :
    Placed key t [] (perform options cache (.check key t)) := by
  have htouch : Placed key t [] (Infra.touch cache key t) :=
    ⟨delete cache key, [], touch_eq .., fun entry hmem => ⟨by simpa using (mem_filter.mp hmem).2, rfl⟩, by simp⟩
  rcases check_cases options cache t hkey with ⟨-, -, -, heq⟩ | ⟨-, heq⟩
  · simpa [perform, heq] using htouch
  · rw [perform, heq]
    refine (htouch.prune hmax).resolve_right ?_
    rintro ⟨-, ⟨hlt, hle⟩ | hle⟩
    · rw [sub_self] at hle
      exact absurd hle (not_le.mpr (by exact_mod_cast hlt))
    · simp [othersHeld] at hle
      omega

/-- A key stays placed until a call finds it expired, or until `max` others are held. -/
theorem placed_or_away (hmax : 0 < options.max) (hkey : key ≠ []) (before : List Call) {after : List Call}
    (hlast : ∀ call ∈ after, call.renews key = false) :
    (Placed key t after (run options (before ++ .check key t :: after)) ∧
      ∀ done, done <+: after → othersHeld key done (run options (before ++ .check key t :: done)) < options.max) ∨
    key ∉ (run options (before ++ .check key t :: after)).map (·.1) ∧
      ((∃ call ∈ after, ∃ u, call.At u ∧ options.Expired t u) ∨
        ∃ done, done <+: after ∧ options.max ≤ othersHeld key done (run options (before ++ .check key t :: done))) := by
  induction after using List.reverseRecOn with
  | nil =>
    have hplaced : Placed key t [] (run options (before ++ [.check key t])) := by
      simpa [run] using placed_checked hmax hkey (run options before)
    exact .inl ⟨hplaced, fun done hdone => by simpa [prefix_nil.mp hdone] using hplaced.othersHeld_lt.trans_le (length_run_le _)⟩
  | append_singleton after call ih =>
    have hrun : run options (before ++ .check key t :: (after ++ [call])) =
        perform options (run options (before ++ .check key t :: after)) call := by simp [run]
    have hother := hlast call (by simp)
    rcases ih fun call hmem => hlast call (mem_append_left _ hmem) with ⟨hplaced, hfew⟩ | ⟨hgone, haway⟩
    · rcases hplaced.perform hmax hother with hnext | ⟨hgone, haway⟩
      · refine .inl ⟨hrun ▸ hnext, fun done hdone => ?_⟩
        rcases prefix_concat_iff.mp hdone with rfl | hdone
        · exact (hrun ▸ hnext).othersHeld_lt.trans_le (length_run_le _)
        · exact hfew done hdone
      · refine .inr ⟨hrun ▸ hgone, haway.imp (fun hexpired => ⟨call, by simp, hexpired⟩) fun hcrowded => ?_⟩
        exact ⟨after ++ [call], prefix_rfl, hrun ▸ hcrowded⟩
    · refine .inr ⟨fun hmem => ?_, haway.imp (fun ⟨c, hmem, h⟩ => ⟨c, mem_append_left _ hmem, h⟩)
        fun ⟨done, hdone, h⟩ => ⟨done, hdone.trans (prefix_append ..), h⟩⟩
      obtain ⟨entry, hmem, rfl⟩ := mem_map.mp hmem
      rcases mem_perform hkey (hrun ▸ hmem) with ⟨hmem, -⟩ | rfl
      · exact hgone (mem_map_of_mem hmem)
      · simp [Call.renews] at hother

theorem exists_lastChecked (hkey : key ≠ []) (hmem : key ∈ (run options calls).map (·.1)) :
    ∃ before t after, LastChecked calls key before t after := by
  obtain ⟨entry, hentry, rfl⟩ := mem_map.mp hmem
  clear hmem
  induction calls using List.reverseRecOn with
  | nil => exact absurd hentry not_mem_nil
  | append_singleton calls call ih =>
    rw [run, foldl_append] at hentry
    rcases mem_perform hkey hentry with ⟨hentry, hother⟩ | rfl
    · obtain ⟨before, t, after, rfl, hlast⟩ := ih hentry
      exact ⟨before, t, after ++ [call], by simp, by simpa [or_imp, forall_and] using ⟨hlast, hother⟩⟩
    · exact ⟨calls, entry.2, [], rfl, by simp⟩

theorem known_iff (hmax : 0 < options.max) (hkey : key ≠ []) (hnow : ∀ call ∈ calls, ∀ u, call.At u → u ≤ now) :
    (∃ existing, (run options calls).get key = some existing ∧ ¬ options.Expired existing now) ↔
      Known options calls key now := by
  constructor
  · rintro ⟨existing, hget, hfresh⟩
    have hmem : key ∈ (run options calls).map (·.1) := mem_map.mpr ⟨_, mem_of_get hget, rfl⟩
    obtain ⟨before, t, after, rfl, hlast⟩ := exists_lastChecked hkey hmem
    obtain ⟨hplaced, hfew⟩ := (placed_or_away hmax hkey before hlast).resolve_right fun h => h.1 hmem
    obtain rfl : existing = t := Option.some.inj (hget.symm.trans hplaced.get)
    refine ⟨before, existing, after, ⟨rfl, hlast⟩, ?_, hfew⟩
    exact (Nat.eq_zero_or_pos _).imp_right fun hpos => not_le.mp fun hle => hfresh ⟨hpos, hle⟩
  · rintro ⟨before, t, after, ⟨rfl, hlast⟩, hyoung, hfew⟩
    rcases placed_or_away hmax hkey before hlast with ⟨hplaced, -⟩ | ⟨-, haway⟩
    · exact ⟨t, hplaced.get, fun ⟨hpos, hle⟩ => hyoung.elim hpos.ne' hle.not_gt⟩
    rcases haway with ⟨call, hmem, u, hat, hpos, hle⟩ | ⟨done, hdone, hcrowded⟩
    · have := hnow call (by simp [hmem]) u hat
      exact absurd (hyoung.resolve_left hpos.ne') (by linarith)
    · exact absurd (hfew done hdone) hcrowded.not_gt

theorem answers_known (hmax : 0 < options.max) (hkey : key ≠ [])
    (hnow : ∀ call ∈ calls, ∀ u, call.At u → u ≤ now) :
    ((check options (run options calls) key now).1 ↔ Known options calls key now) ∧
      ((peek options (run options calls) key now).1 ↔ Known options calls key now) ∧
      (run options calls).length ≤ options.max := by
  refine ⟨?_, ?_, length_run_le calls⟩
  · rw [← known_iff hmax hkey hnow]
    rcases check_cases options (run options calls) now hkey with ⟨existing, hget, hfresh, heq⟩ | ⟨hexpired, heq⟩
    · simp [heq, hget, hfresh]
    · simpa [heq] using hexpired
  · rw [← known_iff hmax hkey hnow]
    rcases peek_cases options (run options calls) now hkey with ⟨existing, hget, hfresh, heq⟩ | ⟨hexpired, heq⟩
    · simp [heq, hget, hfresh]
    · simpa [heq] using hexpired

/-- A key of one minute that is looked up half a minute after its check. -/
theorem answers_known_half :
    Known ⟨some 60, some 1⟩ [.check [97] 0] [97] 30 ∧ (peek ⟨some 60, some 1⟩ [([97], 0)] [97] 30).1 := by
  have hmax : (⟨some 60, some 1⟩ : DedupeCacheOptions).max = 1 := by
    simp [DedupeCacheOptions.max, resolveNonNegativeIntegerOption]
  have httl : (⟨some 60, some 1⟩ : DedupeCacheOptions).ttl = 60 := by
    simp [DedupeCacheOptions.ttl, resolveNonNegativeIntegerOption]
  have hrun : run ⟨some 60, some 1⟩ [.check [97] 0] = [([97], 0)] := by
    simp [run, perform, check, hasUnexpired, prune, pruneMapToMaxSize, touch_eq, delete, hmax, httl]
  have hpeek : (peek ⟨some 60, some 1⟩ [([97], 0)] [97] 30).1 := by
    norm_num [peek, hasUnexpired, JsMap.get, DedupeCacheOptions.Expired, httl]
  have hknown := answers_known (hmax ▸ Nat.one_pos : 0 < DedupeCacheOptions.max ⟨some 60, some 1⟩)
    (by decide : ([97] : JsString) ≠ []) (by simp [Call.At] : ∀ call ∈ [Call.check [97] 0], ∀ u, call.At u → u ≤ 30)
  exact ⟨hknown.2.1.mp (hrun ▸ hpeek), hpeek⟩

end ClawWorks.Infra
