import FleetSnapshot.Proofs.Assembly

/-! What the audit store fails with, and what becomes of the refusals that it is to meet with. It
reports errors of its own only, and a refusal is over once it has been met with. -/

namespace FleetSnapshot.Audit

namespace Query

variable {α : Type}

def Blames (q : Query α) : Prop := ∀ s e, (q s).1 = .error e → e.ofAudit

theorem blames_of_ok {q : Query α} (h : ∀ s, ∃ a, (q s).1 = .ok a) : Blames q := by
  intro s e he
  obtain ⟨a, ha⟩ := h s
  rw [ha] at he
  cases he

theorem blames_closed : Closed fun q => Blames q where
  pure a := blames_of_ok fun _ => ⟨a, rfl⟩
  throw e he := by
    rintro s _ ⟨⟩
    exact he
  get := blames_of_ok fun s => ⟨s, rfl⟩
  now := blames_of_ok fun s => ⟨s.clock s.ticks, rfl⟩
  modify _ _ := blames_of_ok fun _ => ⟨(), rfl⟩
  bind {_ _ q f} hq hf := by
    intro s e h
    rw [bind_apply] at h
    rcases hs : q s with ⟨e' | a, s'⟩ <;> rw [hs] at h
    · cases h
      exact hq s e (by rw [hs])
    · exact hf a s' e h
  statement {_ q} hq := by
    intro s e h
    rw [statement_apply] at h
    split at h
    · cases h
      trivial
    · exact hq _ e h
  transaction {_ body} hb := by
    intro s e h
    have hs := hb s.begun
    rw [transaction_apply] at h
    split at h
    · cases h
      trivial
    · rcases hbody : body s.begun with ⟨e' | a | a, s'⟩ <;> rw [hbody] at h hs
      · cases h
        exact hs e rfl
      · dsimp only at h
        split at h <;> cases h
        trivial
      · cases h

/-- The query meets with the refusals one after the other, from the front. -/
def Spends (q : Query α) : Prop := ∀ s, (q s).2.refusals <:+ s.refusals

theorem spends_closed : Closed fun q => Spends q where
  pure _ s := List.suffix_refl _
  throw _ _ s := List.suffix_refl _
  get s := List.suffix_refl _
  now s := List.suffix_refl _
  modify f hf s := by
    rw [modify_apply]
    exact hf s ▸ List.suffix_refl _
  bind {_ _ q f} hq hf := by
    intro s
    have hs := hq s
    rw [bind_apply]
    rcases h : q s with ⟨e | a, s'⟩ <;> rw [h] at hs
    · exact hs
    · exact (hf a s').trans hs
  statement {_ q} hq := by
    intro s
    have hbegun : s.begun.refusals <:+ s.refusals := List.tail_suffix _
    rw [statement_apply]
    split
    · exact hbegun
    · exact (hq s.begun).trans hbegun
  transaction {_ body} hb := by
    intro s
    have hbegun : s.begun.refusals <:+ s.refusals := List.tail_suffix _
    have hs := (hb s.begun).trans hbegun
    rw [transaction_apply]
    split
    · exact hbegun
    · rcases hbody : body s.begun with ⟨e' | a | a, s'⟩ <;> rw [hbody] at hs
      · exact hs
      · have hcommit : s'.begun.refusals <:+ s.refusals := (List.tail_suffix _).trans hs
        dsimp only
        split <;> exact hcommit
      · exact hs

end Query

open Query

theorem Op.blames {α : Type} (op : Op α) : Blames op.query := blames_closed.op op

theorem Op.spends {α : Type} (op : Op α) : Spends op.query := spends_closed.op op

end FleetSnapshot.Audit
