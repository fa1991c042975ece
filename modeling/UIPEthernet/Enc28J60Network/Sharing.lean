import UIPEthernet.Enc28J60Network.Refinement

/-!
# The pool shared by several owners

What one owner relies on while the others use the pool: a step of the abstract
map on other handles leaves the owner's blocks as they are.
-/

namespace UIPEthernet.Enc28J60Network

open Lib MemoryPool

/-- The handle whose block a call changes or gives back. -/
def Call.target : Call → Option Handle
  | .freeBlock h => some h
  | .resizeBlock h _ => some h
  | .resizeBlockTo h _ _ => some h
  | .writePacket h _ _ => some h
  | .copyPacket dest _ _ _ _ => some dest
  | .allocBlock _ => none
  | .readPacket _ _ _ => none

variable {e e' e'' : Enc28J60Network} {v v' : Map} {x : Call} {r : Result} {own : List Handle}
  {h : Handle}

theorem MapStep.spares (hs : MapStep v (x, r) v') (hlive : v h ≠ none) (ht : x.target ≠ some h) :
    v' h = v h := by
  cases hs with
  | alloc fresh =>
    refine Function.update_of_ne ?_ _ _
    rintro rfl
    exact hlive fresh
  | exhausted => rfl
  | free => exact Function.update_of_ne (fun he => ht (by rw [he]; rfl)) _ _
  | resize => exact Function.update_of_ne (fun he => ht (by rw [he]; rfl)) _ _
  | resizeTo => exact Function.update_of_ne (fun he => ht (by rw [he]; rfl)) _ _
  | write => exact Function.update_of_ne (fun he => ht (by rw [he]; rfl)) _ _
  | read => rfl
  | copy => exact Function.update_of_ne (fun he => ht (by rw [he]; rfl)) _ _

/-- A step of the others, on none of the blocks of `own`. The receive ring and
the registers may change in any way. -/
def Others (own : List Handle) (e e' : Enc28J60Network) : Prop :=
  e'.Valid ∧ ∃ x r, MapStep e.view (x, r) e'.view ∧
    ∀ h ∈ own, e.view h ≠ none → x.target ≠ some h

theorem Others.view (ho : Others own e e') (hh : h ∈ own) (hlive : e.view h ≠ none) :
    e'.view h = e.view h := by
  obtain ⟨-, x, r, hs, hx⟩ := ho
  exact hs.spares hlive (hx h hh hlive)

/-- A handle for some bytes, NOBLOCK when there are none. -/
def Holds (e : Enc28J60Network) (h : Handle) (bytes : List Byte) : Prop :=
  (bytes = [] ∧ h = NOBLOCK) ∨ e.view h = some bytes

theorem view_noblock : e.view NOBLOCK = none := by
  refine view_none.mpr fun hl => ?_
  exact absurd hl.1 (by decide)

theorem Holds.noblock_iff {bytes : List Byte} (hh : Holds e h bytes) : h = NOBLOCK ↔ bytes = [] := by
  rcases hh with ⟨h1, h2⟩ | hview
  · exact ⟨fun _ => h1, fun _ => h2⟩
  · constructor
    · rintro rfl
      exact absurd hview (by simp [view_noblock])
    · rintro rfl
      exact absurd (view_pos hview) (by simp)

theorem Holds.view {bytes : List Byte} (hh : Holds e h bytes) (hne : bytes ≠ []) :
    e.view h = some bytes := by
  rcases hh with ⟨h1, -⟩ | hview
  · exact absurd h1 hne
  · exact hview

theorem Holds.congr {bytes : List Byte} (hh : Holds e h bytes)
    (hview : e.view h ≠ none → e'.view h = e.view h) : Holds e' h bytes := by
  rcases hh with hnone | hv
  · exact .inl hnone
  · exact .inr ((hview (by simp [hv])).trans hv)

theorem blockSize_eq {bytes : List Byte} (hh : Holds e h bytes) : e.blockSize h = bytes.length := by
  by_cases hne : bytes = []
  · rw [blockSize, if_pos (hh.noblock_iff.mpr hne), hne]
    rfl
  · have hv := hh.view hne
    rw [blockSize, if_neg (view_ne hv).1, if_neg (view_ne hv).2, view_length hv]

end UIPEthernet.Enc28J60Network
