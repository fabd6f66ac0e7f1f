import Mathlib.Data.List.Basic
import Mathlib.Data.List.Nodup

/-! Collections of documents.

A collection lists its documents in order of insertion, and no two of them have
the same key. The operations keep that: an insertion under a key in use is
refused, and a modification may not touch the key. -/
namespace Data

structure Collection (α κ : Type) (key : α → κ) where
  docs : List α
  distinct : (docs.map key).Nodup

namespace Collection
variable {α κ : Type} {key : α → κ}

def empty : Collection α κ key := ⟨[], List.nodup_nil⟩

def single (d : α) : Collection α κ key := ⟨[d], List.nodup_singleton _⟩

/-- Documents with the same key are the same. -/
theorem eq_of_key (c : Collection α κ key) {d d' : α} (h : d ∈ c.docs) (h' : d' ∈ c.docs)
    (hk : key d = key d') : d = d' :=
  List.inj_on_of_nodup_map c.distinct h h' hk

section Lookup
variable [DecidableEq κ]

def find (c : Collection α κ key) (k : κ) : Option α := c.docs.find? fun d => decide (key d = k)

theorem find_eq_some {c : Collection α κ key} {k : κ} {d : α} :
    c.find k = some d ↔ d ∈ c.docs ∧ key d = k := by
  constructor
  · intro h
    exact ⟨List.mem_of_find?_eq_some h, by simpa using List.find?_some h⟩
  · intro h'
    obtain ⟨hd, rfl⟩ := h'
    cases h : c.find (key d) with
    | none => simpa using List.find?_eq_none.mp h d hd
    | some d' =>
      have hk : key d' = key d := by simpa using List.find?_some h
      rw [c.eq_of_key (List.mem_of_find?_eq_some h) hd hk]

theorem find_eq_none {c : Collection α κ key} {k : κ} :
    c.find k = none ↔ ∀ d ∈ c.docs, key d ≠ k := by
  simp [find]

/-- Refused under a key in use. -/
def insert (c : Collection α κ key) (d : α) : Option (Collection α κ key) :=
  if h : key d ∈ c.docs.map key then none
  else some ⟨c.docs ++ [d], by
    rw [List.map_append, List.map_singleton, List.nodup_append]
    refine ⟨c.distinct, List.nodup_singleton _, ?_⟩
    intro k hk _ hd h'
    subst h'
    rw [List.mem_singleton.mp hd] at hk
    exact h hk⟩

theorem insert_eq_some {c c' : Collection α κ key} {d : α} (h : c.insert d = some c') :
    c'.docs = c.docs ++ [d] ∧ ∀ d' ∈ c.docs, key d' ≠ key d := by
  unfold insert at h
  split at h
  · cases h
  · rename_i hk
    obtain rfl := Option.some.inj h
    refine ⟨rfl, fun d' hd' he => hk ?_⟩
    rw [← he]
    exact List.mem_map_of_mem hd'

theorem insert_of_fresh {c : Collection α κ key} {d : α} (h : ∀ d' ∈ c.docs, key d' ≠ key d) :
    ∃ c', c.insert d = some c' := by
  have hk : key d ∉ c.docs.map key := by
    intro hmem
    obtain ⟨d', hd', heq⟩ := List.mem_map.mp hmem
    exact h d' hd' heq
  exact ⟨_, dif_neg hk⟩

theorem find_insert {c c' : Collection α κ key} {d : α} (h : c.insert d = some c') (k : κ) :
    c'.find k = if key d = k then some d else c.find k := by
  obtain ⟨hdocs, hnew⟩ := insert_eq_some h
  simp only [find, hdocs, List.find?_append, List.find?_singleton]
  by_cases hk : key d = k
  · have hnone : c.docs.find? (fun d => decide (key d = k)) = none :=
      find_eq_none.mpr fun d' hd' => hk ▸ hnew d' hd'
    simp [hnone, hk]
  · simp [hk]

end Lookup

/-- Apply `f`, which may not touch the key, to the documents that satisfy `p`. -/
def modify (c : Collection α κ key) (p : α → Bool) (f : α → α) (hf : ∀ d, key (f d) = key d) :
    Collection α κ key where
  docs := c.docs.map fun d => if p d then f d else d
  distinct := by
    rw [List.map_map]
    have : key ∘ (fun d => if p d then f d else d) = key := by
      funext d
      by_cases h : p d = true
      · simp [h, hf]
      · simp [h]
    rw [this]
    exact c.distinct

section Modify
variable (c : Collection α κ key) (p : α → Bool) (f : α → α) (hf : ∀ d, key (f d) = key d)

@[simp] theorem modify_docs :
    (c.modify p f hf).docs = c.docs.map fun d => if p d then f d else d := rfl

theorem mem_modify {d : α} : d ∈ (c.modify p f hf).docs ↔
    ∃ d' ∈ c.docs, (if p d' then f d' else d') = d := by
  simp

theorem find_modify [DecidableEq κ] (k : κ) :
    (c.modify p f hf).find k = (c.find k).map fun d => if p d then f d else d := by
  have hkey : ((fun d => decide (key d = k)) ∘ fun d => if p d then f d else d) =
      fun d => decide (key d = k) := by
    funext d
    by_cases h : p d = true
    · simp [h, hf]
    · simp [h]
  simp only [find, modify_docs, List.find?_map, hkey]

end Modify

end Collection

end Data
