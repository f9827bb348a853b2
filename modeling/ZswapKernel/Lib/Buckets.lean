import Mathlib.Data.List.Nodup
import ZswapKernel.Lib.BestByKey

/-!
# Buckets

An index from keys to the owners that declare them: a bucket of owners for each key that has one. A
bucket is made for its first owner and goes with its last, so that no bucket is empty.

* `mem_linkAll`, `mem_unlinkAll` — what is in the buckets after an owner comes or goes.
-/

/-- A bucket of owners for each key that has an owner. -/
structure Buckets (κ ω : Type*) where
  entries : List (κ × List ω)
  distinct : entries.Pairwise (·.1 ≠ ·.1)
  filled : ∀ entry ∈ entries, entry.2 ≠ [] ∧ entry.2.Nodup

namespace Buckets

variable {κ ω : Type*} [DecidableEq κ] [DecidableEq ω]

def empty : Buckets κ ω where
  entries := []
  distinct := .nil
  filled := fun _ h => absurd h List.not_mem_nil

/-- The owners of a key. -/
def bucket (index : Buckets κ ω) (key : κ) : List ω :=
  match index.entries.find? (·.1 = key) with
  | some entry => entry.2
  | none => []

theorem bucket_of_mem {index : Buckets κ ω} {key : κ} {owners : List ω}
    (h : (key, owners) ∈ index.entries) : index.bucket key = owners := by
  unfold bucket
  cases hfind : index.entries.find? (·.1 = key) with
  | none => exact absurd (List.find?_eq_none.mp hfind _ h) (by simp)
  | some entry =>
    have : Std.Symm fun a b : κ × List ω => a.1 ≠ b.1 := ⟨fun _ _ h => Ne.symm h⟩
    have hkey : entry.1 = key := by simpa using List.find?_some hfind
    by_contra hne
    exact index.distinct.forall (List.mem_of_find?_eq_some hfind) h
      (fun heq => hne (by rw [heq])) hkey

theorem mem_bucket {index : Buckets κ ω} {key : κ} {owner : ω} :
    owner ∈ index.bucket key ↔ ∃ owners, (key, owners) ∈ index.entries ∧ owner ∈ owners := by
  constructor
  · intro h
    unfold bucket at h
    split at h
    · rename_i entry hfind
      have hkey : entry.1 = key := by simpa using List.find?_some hfind
      exact ⟨entry.2, hkey ▸ List.mem_of_find?_eq_some hfind, h⟩
    · cases h
  · rintro ⟨owners, hentry, howner⟩
    rwa [bucket_of_mem hentry]

theorem bucket_nodup (index : Buckets κ ω) (key : κ) : (index.bucket key).Nodup := by
  unfold bucket
  split
  · rename_i entry hfind
    exact (index.filled entry (List.mem_of_find?_eq_some hfind)).2
  · exact List.nodup_nil

/-- Put a filled bucket under a key. -/
def put (index : Buckets κ ω) (key : κ) (owners : List ω) (h : owners ≠ [] ∧ owners.Nodup) :
    Buckets κ ω where
  entries := BestByKey.replace Prod.fst (key, owners) index.entries
  distinct := BestByKey.pairwise_replace index.distinct (key, owners)
  filled := fun entry hentry => by
    rcases (BestByKey.mem_replace index.distinct).mp hentry with rfl | ⟨hmem, -⟩
    · exact h
    · exact index.filled entry hmem

/-- Drop the bucket of a key. -/
def drop (index : Buckets κ ω) (key : κ) : Buckets κ ω where
  entries := index.entries.filter (·.1 ≠ key)
  distinct := index.distinct.filter _
  filled := fun entry hentry => index.filled entry (List.mem_of_mem_filter hentry)

theorem mem_bucket_put {index : Buckets κ ω} {key other : κ} {owners : List ω}
    {h : owners ≠ [] ∧ owners.Nodup} {owner : ω} :
    owner ∈ (index.put key owners h).bucket other ↔
      (other = key ∧ owner ∈ owners) ∨ (other ≠ key ∧ owner ∈ index.bucket other) := by
  have hentries : ∀ entry, entry ∈ (index.put key owners h).entries ↔
      entry = (key, owners) ∨ (entry ∈ index.entries ∧ entry.1 ≠ key) := fun entry =>
    BestByKey.mem_replace index.distinct
  rw [mem_bucket, mem_bucket]
  constructor
  · rintro ⟨found, hfound, howner⟩
    rcases (hentries _).mp hfound with heq | ⟨hmem, hne⟩
    · obtain ⟨rfl, rfl⟩ := Prod.mk.inj heq
      exact .inl ⟨rfl, howner⟩
    · exact .inr ⟨hne, found, hmem, howner⟩
  · rintro (⟨rfl, howner⟩ | ⟨hne, found, hmem, howner⟩)
    · exact ⟨owners, (hentries _).mpr (.inl rfl), howner⟩
    · exact ⟨found, (hentries _).mpr (.inr ⟨hmem, hne⟩), howner⟩

theorem mem_bucket_drop {index : Buckets κ ω} {key other : κ} {owner : ω} :
    owner ∈ (index.drop key).bucket other ↔ other ≠ key ∧ owner ∈ index.bucket other := by
  rw [mem_bucket, mem_bucket]
  unfold drop
  simp only [List.mem_filter, decide_eq_true_eq]
  constructor
  · rintro ⟨owners, ⟨hentry, hne⟩, howner⟩
    exact ⟨hne, owners, hentry, howner⟩
  · rintro ⟨hne, owners, hentry, howner⟩
    exact ⟨owners, ⟨hentry, hne⟩, howner⟩

/-! ## Owners that come and go -/

/-- Add an owner to the bucket of a key, which is made if there is none. -/
def link (owner : ω) (index : Buckets κ ω) (key : κ) : Buckets κ ω :=
  if h : owner ∈ index.bucket key then index
  else index.put key (index.bucket key ++ [owner])
    ⟨by simp, List.nodup_append.mpr ⟨index.bucket_nodup key, List.nodup_singleton owner,
      fun a ha b hb heq => h (List.mem_singleton.mp hb ▸ heq ▸ ha)⟩⟩

/-- Remove an owner from the bucket of a key, which goes when it was the last. -/
def unlink (owner : ω) (index : Buckets κ ω) (key : κ) : Buckets κ ω :=
  if h : (index.bucket key).erase owner = [] then index.drop key
  else index.put key ((index.bucket key).erase owner) ⟨h, (index.bucket_nodup key).erase owner⟩

theorem mem_bucket_link {index : Buckets κ ω} {key other : κ} {owner o : ω} :
    o ∈ (link owner index key).bucket other ↔
      o ∈ index.bucket other ∨ (other = key ∧ o = owner) := by
  unfold link
  split
  · rename_i hmem
    refine (or_iff_left_of_imp ?_).symm
    rintro ⟨rfl, rfl⟩
    exact hmem
  · rw [mem_bucket_put, List.mem_append, List.mem_singleton]
    by_cases hkey : other = key
    · subst hkey
      simp
    · simp [hkey]

theorem mem_bucket_unlink {index : Buckets κ ω} {key other : κ} {owner o : ω} :
    o ∈ (unlink owner index key).bucket other ↔
      o ∈ index.bucket other ∧ ¬ (other = key ∧ o = owner) := by
  have herase : o ∈ (index.bucket key).erase owner ↔ o ≠ owner ∧ o ∈ index.bucket key :=
    (index.bucket_nodup key).mem_erase_iff
  unfold unlink
  split
  · rename_i hempty
    rw [mem_bucket_drop]
    by_cases hkey : other = key
    · subst hkey
      rw [hempty] at herase
      simp only [List.not_mem_nil, false_iff, not_and] at herase
      constructor
      · exact fun h => absurd rfl h.1
      · exact fun h => absurd h.1 (herase fun heq => h.2 ⟨rfl, heq⟩)
    · simp [hkey]
  · rw [mem_bucket_put]
    by_cases hkey : other = key
    · subst hkey
      rw [herase]
      simp [and_comm]
    · simp [hkey]

/-- An owner comes with its keys. -/
def linkAll (owner : ω) (keys : List κ) (index : Buckets κ ω) : Buckets κ ω :=
  keys.foldl (link owner) index

/-- An owner goes with its keys. -/
def unlinkAll (owner : ω) (keys : List κ) (index : Buckets κ ω) : Buckets κ ω :=
  keys.foldl (unlink owner) index

/-- **After an owner came** the buckets of its keys have it. -/
theorem mem_linkAll {owner o : ω} {keys : List κ} {index : Buckets κ ω} {key : κ} :
    o ∈ (linkAll owner keys index).bucket key ↔
      o ∈ index.bucket key ∨ (key ∈ keys ∧ o = owner) := by
  unfold linkAll
  induction keys generalizing index with
  | nil => simp
  | cons k keys ih =>
    rw [List.foldl_cons, ih, mem_bucket_link, List.mem_cons, or_and_right, or_assoc]

/-- **After an owner went** the buckets of its keys do not have it. -/
theorem mem_unlinkAll {owner o : ω} {keys : List κ} {index : Buckets κ ω} {key : κ} :
    o ∈ (unlinkAll owner keys index).bucket key ↔
      o ∈ index.bucket key ∧ ¬ (key ∈ keys ∧ o = owner) := by
  unfold unlinkAll
  induction keys generalizing index with
  | nil => simp
  | cons k keys ih =>
    rw [List.foldl_cons, ih, mem_bucket_unlink, List.mem_cons, or_and_right, not_or, and_assoc]

end Buckets
