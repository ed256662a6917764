import Taskowl.Paging
import Taskowl.SummaryCounts

/-!
# Search

`list_tasks(search=s)` puts the search string between two wildcards without
escaping it. It finds the tasks whose name contains the string, for every log,
exactly when the string has no wildcard and no escape character of its own.
-/

namespace Taskowl

open Lib Py

/-- `ILIKE` is `LIKE` on texts without letter case; `fold` drops the case of a letter. -/
structure Sql.Folds (sql : Sql) (fold : Char → Char) : Prop where
  ilike : ∀ text pattern, sql.ilike text pattern =
    sqlWildcards.like (pattern.toList.map fold) (text.toList.map fold)
  keeps : sqlWildcards.Keeps fold

def NameContains (fold : Char → Char) (name s : String) : Prop :=
  s.toList.map fold <:+: name.toList.map fold

/-- Read in any order, the listing has the tasks whose name contains the string, once each. -/
def SearchExact (sql : Sql) (fold : Char → Char) (t : Table TaskEvent) (s : String) : Prop :=
  ∀ env sortBy, env.taskRows.Perm t.rows → sortBy ∈ sortKeys →
    ∃ entries, listTasks env sql { search := some s } none 0 sortBy = .ok (.ok entries) ∧
      (entries.map (·.id)).Nodup ∧
      ∀ id : Uuid, id.str ∈ entries.map (·.id) ↔
        ∃ name, earliestName env.taskRows id = some name ∧ NameContains fold name s

/-- The names of the log that match the string as a pattern are those that contain it. -/
def NamesAgree (fold : Char → Char) (t : Table TaskEvent) (s : String) : Prop :=
  ∀ rows id name, rows.Perm t.rows → earliestName rows id = some name →
    (sqlWildcards.finds (s.toList.map fold) (name.toList.map fold) = true ↔
      NameContains fold name s)

section Listing

variable {sql : Sql} {fold : Char → Char} {env : Env} {t : Table TaskEvent} {s : String}

theorem ilike_search (hsql : sql.Folds fold) (name s : String) :
    sql.ilike name ("%" ++ s ++ "%") =
      sqlWildcards.finds (s.toList.map fold) (name.toList.map fold) := by
  have hmany : fold '%' = '%' := hsql.keeps.fixes '%' (.inl rfl)
  have hpattern : ("%" ++ s ++ "%").toList.map fold = '%' :: (s.toList.map fold ++ ['%']) := by
    rw [String.toList_append, String.toList_append, List.map_append, List.map_append]
    show [fold '%'] ++ _ ++ [fold '%'] = _
    rw [hmany]
    rfl
  rw [hsql.ilike, hpattern]
  rfl

theorem selects_search (hs : s ≠ "") (w : Windowed) :
    TaskFilter.selects { search := some s } env sql none w =
      w.taskName.any fun name => sql.ilike name ("%" ++ s ++ "%") := by
  have hgiven : given (some s) = some s := by simp [given, hs]
  unfold TaskFilter.selects
  rw [hgiven]
  simp [given]

theorem mem_matchingTasks_search (hsql : sql.Folds fold) (hs : s ≠ "")
    {rows : List (Row TaskEvent)} {id : Uuid} :
    id ∈ matchingTasks env sql { search := some s } none rows ↔
      ∃ name, earliestName rows id = some name ∧
        sqlWildcards.finds (s.toList.map fold) (name.toList.map fold) = true := by
  simp only [matchingTasks, selected, List.mem_map, List.mem_filter, selects_search hs,
    Option.any_eq_true, ilike_search hsql]
  constructor
  · rintro ⟨w, ⟨hw, name, hname, hfinds⟩, rfl⟩
    obtain ⟨r, -, rfl⟩ := List.mem_map.mp hw
    exact ⟨name, hname, hfinds⟩
  · rintro ⟨name, hname, hfinds⟩
    obtain ⟨r, hr, hid, -⟩ := (earliestName_isSome rows id).mp (by rw [hname]; rfl)
    obtain ⟨shown, hshown, htask⟩ :=
      exists_latestRow (fun e : TaskEvent => e.taskId) (·.timestamp) hr
    have hshownId : shown.val.taskId = id := htask.trans hid
    refine ⟨_, ⟨List.mem_map_of_mem hshown, name, ?_, hfinds⟩, hshownId⟩
    show earliestName rows shown.val.taskId = some name
    rw [hshownId, hname]

theorem listTasks_search (env : Env) (sql : Sql) (s : String) {sortBy : String}
    (hsort : sortBy ∈ sortKeys) :
    ∃ entries, listTasks env sql { search := some s } none 0 sortBy = .ok (.ok entries) ∧
      (entries.map (·.id)).Perm
        ((matchingTasks env sql { search := some s } none env.taskRows).map (·.str)) := by
  have hsince : parseSince env ({ search := some s } : TaskFilter).since = .ok none := rfl
  obtain ⟨entries, hentries, hperm⟩ := listTasks_selected sql hsince hsort
  refine ⟨entries, hentries, ?_⟩
  have hids := hperm.map (·.id)
  rw [List.map_map] at hids
  unfold matchingTasks selected
  rw [List.map_map]
  exact hids

/-- A search is exact where it finds the names that contain the string. -/
theorem searchExact_iff_namesAgree (hsql : sql.Folds fold) (hs : s ≠ "") :
    SearchExact sql fold t s ↔ NamesAgree fold t s := by
  have hstr : Function.Injective Uuid.str := fun _ _ => Uuid.str_inj
  constructor
  · intro h rows id name hrows hname
    obtain ⟨entries, hentries, -, hids⟩ :=
      h { Env.idle 0 with taskRows := rows } "timestamp" hrows (by decide)
    obtain ⟨entries', hentries', hperm⟩ :=
      listTasks_search { Env.idle 0 with taskRows := rows } sql s
        (show "timestamp" ∈ sortKeys by decide)
    obtain rfl : entries = entries' := by
      rw [hentries] at hentries'
      cases hentries'
      rfl
    have hlisted := (hids id).symm.trans (hperm.mem_iff.trans (List.mem_map_of_injective hstr))
    rw [mem_matchingTasks_search hsql hs] at hlisted
    have hone : ∀ P : String → Prop, (∃ n, earliestName rows id = some n ∧ P n) ↔ P name := by
      intro P
      simp [hname]
    exact ((hone _).symm.trans hlisted.symm).trans (hone _)
  · intro h env sortBy hrows hsort
    obtain ⟨entries, hentries, hperm⟩ := listTasks_search env sql s hsort
    refine ⟨entries, hentries, ?_, fun id => ?_⟩
    · rw [hperm.nodup_iff]
      exact (nodup_matchingTasks hrows).map hstr
    · rw [hperm.mem_iff, List.mem_map_of_injective hstr, mem_matchingTasks_search hsql hs]
      exact exists_congr fun name => and_congr_right fun hname => h _ id name hrows hname

end Listing

/-! ## Every log -/

def loneTask (name : String) : Table TaskEvent :=
  Table.empty.insert 0
    { eventType := .sent, taskId := ⟨45, by decide⟩, timestamp := 1, name := some name }

theorem earliestName_loneTask (name : String) :
    earliestName (loneTask name).rows ⟨45, by decide⟩ = some name := rfl

/-- **A search is exact on a log exactly if the names that match the string as a pattern contain
it, and on every log exactly if the string has no wildcard and no escape character.** -/
theorem search_exact_iff {sql : Sql} {fold : Char → Char} {s : String} (hsql : sql.Folds fold)
    (hs : s ≠ "") :
    (∀ t, SearchExact sql fold t s ↔ NamesAgree fold t s) ∧
      ((∀ t, SearchExact sql fold t s) ↔ sqlWildcards.Plain s.toList) := by
  refine ⟨fun t => searchExact_iff_namesAgree hsql hs, ?_⟩
  simp only [searchExact_iff_namesAgree hsql hs]
  rw [← hsql.keeps.finds_iff_plain]
  constructor
  · intro h text
    have hname := h (loneTask (String.ofList text)) _ _ _ (List.Perm.refl _)
      (earliestName_loneTask (String.ofList text))
    unfold NameContains at hname
    rwa [String.toList_ofList] at hname
  · intro h t rows id name _ _
    exact h name.toList

theorem Sql.ascii_folds : Sql.ascii.Folds Char.toLower := by
  refine ⟨fun _ _ => rfl, ?_, fun c h => ?_⟩
  · rintro c (rfl | rfl | rfl) <;> rfl
  · by_cases hupper : c.val ≥ 'A'.val ∧ c.val ≤ 'Z'.val
    · -- a lower-case letter is not special
      have hval : c.toLower.val = c.val + 32 := congrArg Char.val (dif_pos hupper)
      have hnat := congrArg UInt32.toNat hval
      simp only [ge_iff_le, UInt32.le_iff_toNat_le] at hupper
      rw [UInt32.toNat_add] at hnat
      obtain h | h | h := h <;> rw [h] at hnat <;>
        simp [sqlWildcards] at hnat hupper <;> omega
    · have hself : c.toLower = c := dif_neg hupper
      rwa [hself] at h

/-- A search without wildcards. -/
theorem search_exact_process :
    SearchExact .ascii Char.toLower (loneTask "billing.Process") "process" :=
  (search_exact_iff Sql.ascii_folds (by decide)).2.mpr (by decide) _

/-- `send_mail` finds `send.mail`. -/
theorem search_finds_another_name :
    ¬ SearchExact .ascii Char.toLower (loneTask "send.mail") "send_mail" := by
  intro h
  have h := ((searchExact_iff_namesAgree Sql.ascii_folds (by decide)).mp h) _ _ _
    (List.Perm.refl _) (earliestName_loneTask "send.mail")
  exact absurd (h.mp (by decide)) (by unfold NameContains; decide)

end Taskowl
