import Mathlib.Data.List.Perm.Lattice
import Mathlib.Algebra.Order.Sub.Basic
import Modularis.Foundation.Table

namespace Modularis.Foundation.Drain

variable {σ ε α : Type*}

/-- Between the states some of the pending items went out, each once, and the others
are pending still. -/
structure HandsOut (pending out : σ → List α) (limit : Nat) (s t : σ) : Prop where
  sent : ∃ sent, out t = out s ++ sent ∧ (sent ++ pending t).Perm (pending s) ∧
    sent.length = min limit (pending s).length

/-- Passes over an outbox.  While a schedule is `ready` its next pass finds everything
that is pending due. -/
structure Outbox (σ ε α : Type*) where
  pending : σ → List α
  out : σ → List α
  limit : Nat
  pass : σ → ε → σ
  ready : σ → List ε → Prop
  handsOut : ∀ s e es, ready s (e :: es) → HandsOut pending out limit s (pass s e)
  stays : ∀ s e es, ready s (e :: es) → ready (pass s e) es

namespace Outbox

variable (O : Outbox σ ε α)

/-- The passes of a schedule, one after the other. -/
def run (s : σ) (es : List ε) : σ := es.foldl O.pass s

/-- What the passes have handed out and what they have left is what was pending. -/
structure Delivers (s t : σ) (passes : Nat) : Prop where
  sent : ∃ sent, O.out t = O.out s ++ sent ∧ (sent ++ O.pending t).Perm (O.pending s)
  left : (O.pending t).length = (O.pending s).length - passes * O.limit

variable {O}

theorem Delivers.refl (s : σ) : O.Delivers s s 0 where
  sent := ⟨[], by simp, by simp⟩
  left := by simp

theorem Delivers.pass {s t u : σ} {passes : Nat} (h : HandsOut O.pending O.out O.limit s t)
    (hrest : O.Delivers t u passes) : O.Delivers s u (passes + 1) := by
  obtain ⟨first, hout, hperm, hlength⟩ := h.sent
  obtain ⟨later, hout', hperm'⟩ := hrest.sent
  refine ⟨⟨first ++ later, ?_, ?_⟩, ?_⟩
  · rw [hout', hout, List.append_assoc]
  · rw [List.append_assoc]
    exact (hperm'.append_left first).trans hperm
  · have hsplit := hperm.length_eq
    rw [List.length_append] at hsplit
    rw [hrest.left, Nat.add_mul]
    omega

theorem delivers_run {s : σ} {es : List ε} (h : O.ready s es) :
    O.Delivers s (O.run s es) es.length := by
  induction es generalizing s with
  | nil => exact .refl s
  | cons e es ih => exact .pass (O.handsOut s e es h) (ih (O.stays s e es h))

/-- Everything that was pending has gone out once, and nothing is pending any more. -/
structure Emptied (O : Outbox σ ε α) (s t : σ) : Prop where
  none : O.pending t = []
  sent : ∃ sent, O.out t = O.out s ++ sent ∧ sent.Perm (O.pending s)

theorem emptied_run {s : σ} {es : List ε} (h : O.ready s es)
    (hpasses : (O.pending s).length ≤ es.length * O.limit) : O.Emptied s (O.run s es) := by
  have hdelivers := delivers_run h
  have hnone : O.pending (O.run s es) = [] := by
    rw [← List.length_eq_zero_iff, hdelivers.left]
    omega
  obtain ⟨sent, hout, hperm⟩ := hdelivers.sent
  rw [hnone, List.append_nil] at hperm
  exact ⟨hnone, sent, hout, hperm⟩

end Outbox

section Tables

variable {κ ρ β : Type*} {key : ρ → κ} {t t' : Table key} {wanted : ρ → Bool}
  {le : ρ → ρ → Prop} [DecidableRel le] {limit : Nat}

theorem length_select :
    (t.select wanted le limit).length = min limit (t.rows.filter wanted).length := by
  rw [Table.select, List.length_take, List.length_insertionSort]

theorem select_congr {wanted' : ρ → Bool} (h : ∀ r ∈ t.rows, wanted r = wanted' r) :
    t.select wanted le limit = t.select wanted' le limit := by
  rw [Table.select, Table.select, List.filter_congr h]

theorem perm_select
    (hothers : ∀ k, k ∉ (t.select wanted le limit).map key → t'.row k = t.row k)
    (hdone : ∀ r ∈ t'.rows, key r ∈ (t.select wanted le limit).map key →
      wanted r = false) :
    (t.select wanted le limit ++ t'.rows.filter wanted).Perm (t.rows.filter wanted) := by
  have hkeys : ∀ u : Table key, u.rows.Nodup := fun u =>
    List.Nodup.of_map key (u.map_key_rows ▸ u.nodup_keys)
  have hselected := List.Nodup.of_map key (t.nodup_select wanted le limit)
  have hapart : ∀ r ∈ t'.rows.filter wanted,
      key r ∉ (t.select wanted le limit).map key := by
    intro r hr hmem
    obtain ⟨hrow, hwanted⟩ := List.mem_filter.mp hr
    rw [hdone r hrow hmem] at hwanted
    cases hwanted
  rw [List.perm_ext_iff_of_nodup]
  · intro r
    rw [List.mem_append]
    constructor
    · rintro (hmem | hmem)
      · obtain ⟨hrow, hwanted⟩ := Table.mem_of_mem_select _ _ _ hmem
        exact List.mem_filter.mpr ⟨(t.mem_rows_iff r).mpr hrow, hwanted⟩
      · have hsame := hothers (key r) (hapart r hmem)
        obtain ⟨hrow, hwanted⟩ := List.mem_filter.mp hmem
        rw [t'.mem_rows_iff, hsame, ← t.mem_rows_iff] at hrow
        exact List.mem_filter.mpr ⟨hrow, hwanted⟩
    · intro hmem
      obtain ⟨hrow, hwanted⟩ := List.mem_filter.mp hmem
      by_cases hkey : key r ∈ (t.select wanted le limit).map key
      · obtain ⟨r', hr', hkey'⟩ := List.mem_map.mp hkey
        have hrow' := (t.mem_rows_iff r').mpr (Table.mem_of_mem_select _ _ _ hr').1
        obtain rfl := t.eq_of_key hrow' hrow hkey'
        exact .inl hr'
      · refine .inr (List.mem_filter.mpr ⟨?_, hwanted⟩)
        rw [t'.mem_rows_iff, hothers _ hkey]
        exact (t.mem_rows_iff r).mp hrow
  · refine List.nodup_append.mpr ⟨hselected, (hkeys t').filter _, ?_⟩
    rintro r hr r' hr' rfl
    exact hapart r hr' (List.mem_map_of_mem hr)
  · exact (hkeys t).filter _

theorem handsOut_select {s u : σ} {pending out : σ → List β} (view : ρ → β)
    (hs : pending s = (t.rows.filter wanted).map view)
    (hu : pending u = (t'.rows.filter wanted).map view)
    (hout : out u = out s ++ (t.select wanted le limit).map view)
    (hothers : ∀ k, k ∉ (t.select wanted le limit).map key → t'.row k = t.row k)
    (hdone : ∀ r ∈ t'.rows, key r ∈ (t.select wanted le limit).map key →
      wanted r = false) : HandsOut pending out limit s u := by
  refine ⟨_, hout, ?_, ?_⟩
  · rw [hs, hu, ← List.map_append]
    exact (perm_select hothers hdone).map view
  · rw [hs, List.length_map, List.length_map, length_select]

end Tables

end Modularis.Foundation.Drain
