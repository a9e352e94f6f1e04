/-
  ChatMarkup/Proofs/Locale/PluralCache.lean
  =========================================
  **The cache of plural rules does not show** — whatever has been asked before, an answer is the
  one that rules built for it would give (`categories_eq_map`).

  What carries this through a row of calls is that the cache is sound: an entry holds the rules
  that are built for its tag.  Tags are remembered as they are spelt, so two spellings of one
  tag have entries of their own, with the same rules in them.
-/
import ChatMarkup.Locale.Alias
import ChatMarkup.Locale.PluralCache
import ChatMarkup.Proofs.Result
import ChatMarkup.Proofs.Text.Run
import Mathlib.Data.List.Nodup

namespace ChatMarkup.Locale

variable {Rules : Type} {book : RuleBook Rules} {cache : RuleCache Rules} {tag tag' : String}
  {count : Int64}

/-! ### Sound caches -/

/-- The entries of a cache are the rules for their tags, and no tag has two. -/
structure RuleCache.Sound (book : RuleBook Rules) (cache : RuleCache Rules) : Prop where
  built : ∀ entry ∈ cache, book.build entry.1 = .ok entry.2
  distinct : (cache.map Prod.fst).Nodup

namespace RuleCache

theorem sound_nil : Sound book [] where
  built := List.forall_mem_nil _
  distinct := List.nodup_nil

theorem Sound.build_of_lookup (sound : Sound book cache) {rules : Rules}
    (hit : cache.lookup tag = some rules) : book.build tag = .ok rules := by
  obtain ⟨before, behind, rfl, -⟩ := List.lookup_eq_some_iff.mp hit
  exact sound.built (tag, rules) (by simp)

theorem Sound.insert (sound : Sound book cache) {rules : Rules} (miss : cache.lookup tag = none)
    (built : book.build tag = .ok rules) : Sound book (cache ++ [(tag, rules)]) where
  built := by
    intro entry member
    rcases List.mem_append.mp member with old | new
    · exact sound.built entry old
    · obtain rfl := List.mem_singleton.mp new
      exact built
  distinct := by
    rw [List.map_append, List.nodup_append]
    refine ⟨sound.distinct, List.nodup_singleton _, ?_⟩
    intro known member other new same
    obtain ⟨entry, old, rfl⟩ := List.mem_map.mp member
    obtain rfl := List.mem_singleton.mp new
    have different := List.lookup_eq_none_iff.mp miss entry old
    simp [same] at different

/-- A call answers as without a cache, and leaves the cache sound. -/
theorem Sound.category (sound : Sound book cache) (tag : String) (count : Int64) :
    (RuleCache.category book cache tag count).1 = book.category tag count ∧
      Sound book (RuleCache.category book cache tag count).2 := by
  unfold RuleCache.category RuleBook.category
  split
  · rename_i rules hit
    rw [sound.build_of_lookup hit]
    exact ⟨rfl, sound⟩
  · rename_i miss
    split
    · rename_i rules built
      rw [built]
      exact ⟨rfl, sound.insert miss built⟩
    · rename_i error failed
      rw [failed]
      exact ⟨rfl, sound⟩

/-- A call that fails leaves the cache as it is. -/
theorem category_of_error {error : Error}
    (failed : (category book cache tag count).1 = .error error) :
    (category book cache tag count).2 = cache := by
  unfold category at failed ⊢
  split
  · rfl
  · rename_i miss
    rw [miss] at failed
    split
    · rename_i rules built
      rw [built] at failed
      cases failed
    · rfl

theorem Sound.categories (sound : Sound book cache) (calls : List (String × Int64)) :
    (RuleCache.categories book cache calls).1 =
        calls.map (fun call => book.category call.1 call.2) ∧
      Sound book (RuleCache.categories book cache calls).2 := by
  induction calls generalizing cache with
  | nil => exact ⟨rfl, sound⟩
  | cons call calls ih =>
    obtain ⟨first, after⟩ := sound.category call.1 call.2
    obtain ⟨others, last⟩ := ih after
    refine ⟨?_, last⟩
    rw [RuleCache.categories, List.map_cons, ← first, ← others]

end RuleCache

/-! ### Spellings -/

theorem takeWhile_front {front suffix : List Char} (inside : ∀ c ∈ front, c ≠ '.' ∧ c ≠ '@')
    (ends : IsSuffix suffix) :
    (front ++ suffix).takeWhile (fun c => !(c == '.' || c == '@')) = front := by
  apply Text.takeWhile_append_of_run
  · intro c member
    simp [inside c member]
  · intro c first
    rcases ends c first with rfl | rfl <;> rfl

/-- Two spellings of a tag have the same subtags. -/
theorem subtagsOf_congr (alike : SpeltAlike tag tag') : subtagsOf tag = subtagsOf tag' := by
  obtain ⟨front, suffix, front', suffix', split, split', inside, same, ends, ends'⟩ := alike
  -- a hyphen or an underscore is neither a point nor an at sign, so both fronts end there
  have inside' : ∀ c ∈ front', c ≠ '.' ∧ c ≠ '@' := by
    clear split split'
    induction same with
    | nil => exact List.forall_mem_nil _
    | cons first _ ih =>
      obtain ⟨here, others⟩ := List.forall_mem_cons.mp inside
      refine List.forall_mem_cons.mpr ⟨?_, ih others⟩
      rcases first with rfl | ⟨-, rfl⟩ | ⟨-, rfl⟩
      · exact here
      · decide
      · decide
  have written : front.map (fun c => if c = '_' then '-' else c.toLower) =
      front'.map fun c => if c = '_' then '-' else c.toLower := by
    clear split split' inside inside'
    induction same with
    | nil => rfl
    | cons first _ ih =>
      rw [List.map_cons, List.map_cons, ih]
      rcases first with rfl | ⟨rfl, rfl⟩ | ⟨rfl, rfl⟩ <;> rfl
  rw [subtagsOf, subtagsOf, split, split', takeWhile_front inside ends,
    takeWhile_front inside' ends', written]

theorem RuleBook.build_congr (book : RuleBook Rules) (alike : SpeltAlike tag tag') {rules : Rules} :
    book.build tag = .ok rules ↔ book.build tag' = .ok rules := by
  rw [build, build, mapError_eq_ok, mapError_eq_ok, Tag.read, Tag.read, subtagsOf_congr alike]

theorem RuleBook.category_congr (book : RuleBook Rules) (alike : SpeltAlike tag tag')
    (category : Category) :
    book.category tag count = .ok category ↔ book.category tag' count = .ok category := by
  simp only [RuleBook.category, map_eq_ok, book.build_congr alike]

/-- **The cache of plural rules does not show.**  Whatever the rules are, and after any calls, the
    answers are those of rules that are built afresh, and the cache is sound.  Another call that
    fails leaves the cache as it is, and two spellings of a tag have the same categories. With the
    standard rules, the answers are the categories that the systems of the languages give. -/
theorem categories_eq_map (book : RuleBook Rules) (calls : List (String × Int64)) :
    (RuleCache.categories book [] calls).1 =
        calls.map (fun call => book.category call.1 call.2) ∧
      RuleCache.Sound book (RuleCache.categories book [] calls).2 ∧
      (∀ cache, cache = (RuleCache.categories book [] calls).2 →
        (∀ tag count error, (RuleCache.category book cache tag count).1 = .error error →
          (RuleCache.category book cache tag count).2 = cache) ∧
        ∀ tag tag', SpeltAlike tag tag' → ∀ count category,
          (RuleCache.category book cache tag count).1 = .ok category ↔
            (RuleCache.category book cache tag' count).1 = .ok category) ∧
      (PluralCache.categories [] calls).1 = calls.map fun call => pluralCategory call.1 call.2 := by
  have fresh : RuleCache.Sound book [] := RuleCache.sound_nil
  obtain ⟨answers, sound⟩ := fresh.categories calls
  refine ⟨answers, sound, ?_, ?_⟩
  · rintro cache rfl
    refine ⟨fun tag count error => RuleCache.category_of_error, ?_⟩
    intro tag tag' alike count category
    -- in a sound cache a call is answered as by rules that are built for it
    rw [(sound.category tag count).1, (sound.category tag' count).1]
    exact book.category_congr alike category
  · have standard : RuleCache.Sound .standard [] := RuleCache.sound_nil
    simp only [PluralCache.categories, (standard.categories calls).1, RuleBook.standard_category]

/-- A tag that has been asked under another spelling, behind one that could not be read. -/
theorem category_spelt_otherwise :
    let cache := (RuleCache.categories .standard [] [("ru_RU.UTF-8", 2), ("e", 1)]).2
    SpeltAlike "ru_RU.UTF-8" "ru-RU" ∧
      (RuleCache.category .standard cache "ru-RU" 2).1 = .ok .few ∧
      (RuleCache.category .standard cache "e" 1).2 = cache := by
  intro cache
  obtain ⟨-, -, after, -⟩ := categories_eq_map .standard [("ru_RU.UTF-8", 2), ("e", 1)]
  obtain ⟨failed, spelt⟩ := after cache rfl
  have alike : SpeltAlike "ru_RU.UTF-8" "ru-RU" :=
    ⟨"ru_RU".toList, ".UTF-8".toList, "ru-RU".toList, [], by simp, by simp, by simp,
      by simp [SameInTag], by simp [IsSuffix], by simp [IsSuffix]⟩
  have known : (RuleCache.category .standard cache "ru_RU.UTF-8" 2).1 = .ok .few := by
    unfold cache
    decide +kernel
  have unknown : (RuleCache.category .standard cache "e" 1).1 =
      .error (.invalidTag "e" .language) := by
    unfold cache
    decide +kernel
  exact ⟨alike, (spelt _ _ alike 2 .few).mp known, failed "e" 1 _ unknown⟩

end ChatMarkup.Locale
