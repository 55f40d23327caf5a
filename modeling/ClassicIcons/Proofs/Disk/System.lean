import ClassicIcons.Proofs.Disk.Following

/-! Systems with a disk.

Programs run on a system, not on a disk. A system may refuse what its disk has room
for, for want of a permission or for a reason of its own; but what it grants it does to
the disk, and what it refuses leaves the disk as it is (`System`). A disk by itself is a
system that refuses nothing.

On every system, making directories adds directories at the paths asked for, and nothing
else (`makeDirectories_made`). -/
namespace ClassicIcons.Disk

/-! ### Programs that ran -/

section
variable {σ α β : Type} {s s' : σ}

/-- A program that went through its first part and then through the others. -/
theorem bind_eq_iff {m : StateM σ α} {f : α → StateM σ β} {y : β} :
    (m >>= f) s = (y, s') ↔ ∃ x mid, m s = (x, mid) ∧ f x mid = (y, s') := by
  constructor
  · intro h
    exact ⟨(m s).1, (m s).2, rfl, h⟩
  · intro h
    obtain ⟨x, mid, hm, hf⟩ := h
    show f (m s).1 (m s).2 = (y, s')
    rw [hm]
    exact hf

theorem pure_eq_iff {x y : α} : (pure x : StateM σ α) s = (y, s') ↔ x = y ∧ s = s' :=
  Prod.mk.injEq .. ▸ Iff.rfl

end

/-! ### Systems -/

/-- The operation was done, or it was refused and nothing happened. -/
def Granted (op : Disk → Except Fault Disk) (d d' : Disk) : Except Fault Unit → Prop
  | .ok () => op d = .ok d'
  | .error _ => d' = d

/-- A system with a disk. -/
class System (σ : Type) [Storage (StateM σ)] where
  disk : σ → Disk
  reads {p : Path} {s s' : σ} {result : Except Fault Bytes} :
    Storage.readFile (m := StateM σ) p s = (result, s') →
      disk s' = disk s ∧ ∀ content, result = .ok content → (disk s).readFile p = .ok content
  looks {p : Path} {s s' : σ} {answer : Bool} :
    Storage.isDirectory (m := StateM σ) p s = (answer, s') →
      disk s' = disk s ∧ (answer = true → (disk s).isDirectory p = true)
  makes {p : Path} {s s' : σ} {result : Except Fault Unit} :
    Storage.makeDirectory (m := StateM σ) p s = (result, s') →
      Granted (makeDirectory · p) (disk s) (disk s') result
  writes {p : Path} {content : Bytes} {s s' : σ} {result : Except Fault Unit} :
    Storage.writeFile (m := StateM σ) p content s = (result, s') →
      Granted (writeFile · p content) (disk s) (disk s') result

theorem granted_attempt {op : Disk → Except Fault Disk} {d d' : Disk} {result : Except Fault Unit}
    (h : attempt op d = (result, d')) : Granted op d d' result := by
  unfold attempt at h
  split at h
  · rename_i hop
    cases h
    exact hop
  · cases h
    rfl

instance : System Disk where
  disk := id
  reads h := by
    cases h
    exact ⟨rfl, fun _ h => h⟩
  looks h := by
    cases h
    exact ⟨rfl, fun h => h⟩
  makes h := granted_attempt h
  writes h := granted_attempt h

@[simp] theorem disk_self (d : Disk) : System.disk d = d := rfl

/-! ### Making directories -/

/-- Nothing changed but that there are directories now where some of the paths lead. -/
structure Made (ps : List Path) (d d' : Disk) : Prop where
  limits : d'.limits = d.limits
  kept : ∀ l, d.find? l ≠ none → d'.find? l = d.find? l
  added : ∀ l, d.find? l = none → d'.find? l ≠ none →
    d'.find? l = some .directory ∧ ∃ p ∈ ps, d'.Leads p l

theorem Made.grows {ps : List Path} {d d' : Disk} (h : Made ps d d') : d.Grows d' where
  limits := h.limits
  directory l hl := by
    rw [h.kept l (by rw [hl]; exact Option.some_ne_none _), hl]
  found l hl := by
    rw [h.kept l hl]
    exact hl

theorem Made.refl (ps : List Path) (d : Disk) : Made ps d d :=
  ⟨rfl, fun _ _ => rfl, fun _ hnone hfound => absurd hnone hfound⟩

theorem Made.trans {ps : List Path} {d d' d'' : Disk} (h : Made ps d d') (h' : Made ps d' d'') :
    Made ps d d'' where
  limits := h'.limits.trans h.limits
  kept l hl := by
    rw [h'.kept l (h.grows.found l hl), h.kept l hl]
  added l hnone hfound := by
    by_cases hmid : d'.find? l = none
    · exact h'.added l hmid hfound
    · obtain ⟨hdirectory, p, hp, hleads⟩ := h.added l hnone hmid
      exact ⟨h'.grows.directory l hdirectory, p, hp, hleads.of_grows h'.grows⟩

theorem Made.mono {ps qs : List Path} {d d' : Disk} (h : Made ps d d') (hsub : ps ⊆ qs) :
    Made qs d d' where
  limits := h.limits
  kept := h.kept
  added l hnone hfound :=
    have ⟨hdirectory, p, hp, hleads⟩ := h.added l hnone hfound
    ⟨hdirectory, p, hsub hp, hleads⟩

/-- No file comes or goes. -/
theorem Made.file_iff {ps : List Path} {d d' : Disk} (h : Made ps d d') (l : Location) (content : Bytes) :
    d'.find? l = some (.file content) ↔ d.find? l = some (.file content) := by
  by_cases hnone : d.find? l = none
  · rw [hnone]
    constructor
    · intro hfile
      obtain ⟨hdirectory, -⟩ := h.added l hnone (by rw [hfile]; exact Option.some_ne_none _)
      rw [hdirectory] at hfile
      cases hfile
    · exact (nomatch ·)
  · rw [h.kept l hnone]

theorem Made.directory_iff {ps : List Path} {d d' : Disk} (h : Made ps d d') (l : Location) :
    d'.find? l = some .directory ↔
      d.find? l = some .directory ∨ d.find? l = none ∧ ∃ p ∈ ps, d'.Enters p l := by
  constructor
  · intro hdirectory
    by_cases hnone : d.find? l = none
    · obtain ⟨-, p, hp, hleads⟩ := h.added l hnone (by rw [hdirectory]; exact Option.some_ne_none _)
      exact .inr ⟨hnone, p, hp, hleads, hdirectory⟩
    · rw [h.kept l hnone] at hdirectory
      exact .inl hdirectory
  · intro hd
    rcases hd with hd | ⟨-, p, -, -, hdirectory⟩
    · exact h.grows.directory l hd
    · exact hdirectory

theorem concat_ne_nil (l : Location) (name : String) : l ++ [name] ≠ [] :=
  List.append_ne_nil_of_right_ne_nil l (List.cons_ne_nil name [])

/-- A directory that is made is one that the path leads to. -/
theorem makeDirectory_made {d d' : Disk} {p : Path} (h : d.makeDirectory p = .ok d') :
    Made [p] d d' ∧ ∃ l, d'.Enters p l := by
  obtain ⟨into, name, hnames, hfree, rfl⟩ := makeDirectory_eq_ok_iff.1 h
  have hl := concat_ne_nil into name
  have hgrows : d.Grows (d.put (into ++ [name]) .directory) := grows_put hl (.inl rfl)
  have hfound : (d.put (into ++ [name]) .directory).find? (into ++ [name]) = some .directory := by
    rw [find?_put d hl, if_pos rfl]
  have hleads : (d.put (into ++ [name]) .directory).Leads p (into ++ [name]) :=
    (hnames.of_grows hgrows).leads_of_found (by rw [hfound]; exact Option.some_ne_none _)
  refine ⟨⟨hgrows.limits, fun l hkept => ?_, fun l hnone hnew => ?_⟩, _, hleads, hfound⟩
  · rw [find?_put d hl, if_neg fun heq : l = into ++ [name] => hkept (heq ▸ hfree)]
  · have heq : l = into ++ [name] := by
      refine Decidable.byContradiction fun hne => hnew ?_
      rw [find?_put d hl, if_neg hne, hnone]
    rw [heq]
    exact ⟨hfound, p, List.mem_singleton.2 rfl, hleads⟩

namespace System
variable {σ : Type} [Storage (StateM σ)] [System σ] {s s' : σ} {p : Path} {result : Except Fault Unit}

theorem unlessDirectory_made {fault : Fault}
    (h : Storage.unlessDirectory (m := StateM σ) p fault s = (result, s')) :
    Made [p] (disk s) (disk s') ∧ (result = .ok () → ∃ l, (disk s').Enters p l) := by
  obtain ⟨answer, mid, hlook, h⟩ := bind_eq_iff.1 h
  obtain ⟨hsame, hanswer⟩ := looks hlook
  have hmade : Made [p] (disk s) (disk mid) := hsame ▸ Made.refl [p] (disk s)
  cases answer with
  | true =>
    obtain ⟨-, rfl⟩ := pure_eq_iff.1 h
    exact ⟨hmade, fun _ => hsame ▸ (isDirectory_iff.1 (hanswer rfl)).2⟩
  | false =>
    obtain ⟨rfl, rfl⟩ := pure_eq_iff.1 h
    exact ⟨hmade, fun hok => nomatch hok⟩

theorem makes_made
    (h : Storage.makeDirectory (m := StateM σ) p s = (result, s')) :
    Made [p] (disk s) (disk s') ∧ (result = .ok () → ∃ l, (disk s').Enters p l) := by
  have hgranted := makes h
  cases result with
  | ok _ =>
    have hmade := makeDirectory_made hgranted
    exact ⟨hmade.1, fun _ => hmade.2⟩
  | error fault =>
    have hsame : disk s' = disk s := hgranted
    exact ⟨hsame ▸ Made.refl [p] (disk s), fun hok => nomatch hok⟩

/-- **Making missing directories adds directories and nothing else**; if that is not
refused, the first path enters one. -/
theorem makeMissing_made {ps : List Path}
    (h : Storage.makeMissing (m := StateM σ) ps s = (result, s')) :
    Made ps (disk s) (disk s') ∧
      (result = .ok () → ∀ p ∈ ps.head?, ∃ l, (disk s').Enters p l) := by
  induction ps generalizing s result s' with
  | nil =>
    obtain ⟨-, rfl⟩ := pure_eq_iff.1 h
    exact ⟨Made.refl [] (disk s), fun _ p hp => nomatch hp⟩
  | cons p above ih =>
    have hone : [p] ⊆ p :: above := List.cons_subset_cons p (List.nil_subset above)
    obtain ⟨first, s₁, hfirst, h⟩ := bind_eq_iff.1 h
    have hmade₁ := makes_made hfirst
    split at h
    · obtain ⟨rfl, rfl⟩ := pure_eq_iff.1 h
      exact ⟨hmade₁.1.mono hone, fun hok q hq => by cases hq; exact hmade₁.2 hok⟩
    · obtain ⟨others, s₂, hothers, h⟩ := bind_eq_iff.1 h
      have hmade₂ := hmade₁.1.mono hone |>.trans ((ih hothers).1.mono (List.subset_cons_self p above))
      split at h
      · obtain ⟨rfl, rfl⟩ := pure_eq_iff.1 h
        exact ⟨hmade₂, fun hok => nomatch hok⟩
      · -- Those above are there now, and the first is tried once more.
        obtain ⟨again, s₃, hagain, h⟩ := bind_eq_iff.1 h
        have hmade₃ := makes_made hagain
        split at h
        · obtain ⟨rfl, rfl⟩ := pure_eq_iff.1 h
          exact ⟨hmade₂.trans (hmade₃.1.mono hone), fun hok q hq => by cases hq; exact hmade₃.2 hok⟩
        · have hmade₄ := unlessDirectory_made h
          exact ⟨hmade₂.trans (hmade₃.1.mono hone) |>.trans (hmade₄.1.mono hone),
            fun hok q hq => by cases hq; exact hmade₄.2 hok⟩
    · have hmade₂ := unlessDirectory_made h
      exact ⟨hmade₁.1.mono hone |>.trans (hmade₂.1.mono hone),
        fun hok q hq => by cases hq; exact hmade₂.2 hok⟩

/-- The same for a directory and those above it. -/
theorem makeDirectories_made {p : Path}
    (h : Storage.makeDirectories (m := StateM σ) p s = (result, s')) :
    Made (p :: p.above) (disk s) (disk s') ∧ (result = .ok () → ∃ l, (disk s').Enters p l) := by
  unfold Storage.makeDirectories at h
  split at h
  · rename_i hempty
    obtain ⟨-, rfl⟩ := pure_eq_iff.1 h
    refine ⟨Made.refl _ _, fun _ => ⟨[], ?_, rfl⟩⟩
    rw [show p = ⟨""⟩ from congrArg Path.mk hempty]
    rfl
  · have hmade := makeMissing_made h
    exact ⟨hmade.1, fun hok => hmade.2 hok p rfl⟩

end System
end ClassicIcons.Disk
