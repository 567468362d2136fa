import Mathlib

/-!
# Prefix codes

A code whose words tell where they end can be sent as one stream: what stands in the stream
determines the words.
-/

namespace PrefixCode

open InformationTheory

variable {α : Type*} {S : Set (List α)}

/-- No word is empty, and none is the beginning of another. -/
structure IsPrefixCode (S : Set (List α)) : Prop where
  ne_nil : ∀ w ∈ S, w ≠ []
  eq_of_prefix : ∀ v ∈ S, ∀ w ∈ S, v <+: w → v = w

/-- Words whose length can be read off whatever follows them. -/
lemma isPrefixCode_of_size {size : List α → Option ℕ} (hne : ∀ w ∈ S, w ≠ [])
    (h : ∀ w ∈ S, ∀ rest, size (w ++ rest) = some w.length) : IsPrefixCode S where
  ne_nil := hne
  eq_of_prefix := by
    rintro v hv w hw ⟨rest, rfl⟩
    have hsize := h _ hw []
    rw [List.append_nil, h v hv rest, Option.some.injEq] at hsize
    exact (List.prefix_append v rest).eq_of_length hsize

lemma IsPrefixCode.uniquelyDecodable (h : IsPrefixCode S) : UniquelyDecodable S := by
  intro vs ws hvs hws hflat
  induction vs generalizing ws with
  | nil =>
    cases ws with
    | nil => rfl
    | cons w ws =>
      have hw := h.ne_nil w (hws w List.mem_cons_self)
      simp [hw] at hflat
  | cons v vs ih =>
    cases ws with
    | nil =>
      have hv := h.ne_nil v (hvs v List.mem_cons_self)
      simp [hv] at hflat
    | cons w ws =>
      rw [List.flatten_cons, List.flatten_cons] at hflat
      have hv := hvs v List.mem_cons_self
      have hw := hws w List.mem_cons_self
      -- Of two beginnings of one stream, one begins the other.
      have hvw : v = w := by
        rcases List.prefix_or_prefix_of_prefix (List.prefix_append v vs.flatten)
          (hflat ▸ List.prefix_append w ws.flatten) with hpre | hpre
        · exact h.eq_of_prefix v hv w hw hpre
        · exact (h.eq_of_prefix w hw v hv hpre).symm
      subst hvw
      rw [ih ws (fun u hu => hvs u (List.mem_cons_of_mem v hu))
        (fun u hu => hws u (List.mem_cons_of_mem v hu)) (List.append_cancel_left hflat)]

end PrefixCode
