import JavaStubs.Proofs.FaultyDisk
import JavaStubs.Proofs.FileRemoval

/-!
# Paths in a tree that lost entries

When a tree loses entries, a path without two dots leads to the same place as before, or nothing
stands at its place any more. So what a path leads to stays unless that very entry was lost, and a
deletion that fails afterwards for any other reason than absence would have failed before.

Deleting a file and the empty directories that it lay in takes away nothing but the file and
directories on the way to it. It is no matter for a path that leads somewhere else.
-/
namespace JavaStubs.Files

open JavaStubs.Path (IsName component?)

/-- Neither place is the other one or lies below it. -/
def Diverge (place other : Place) : Prop := ¬ place <+: other ∧ ¬ other <+: place

theorem Diverge.ne {place other : Place} (h : Diverge place other) : place ≠ other := by
  rintro rfl
  exact h.1 List.prefix_rfl

namespace FileTree

variable {tree before after : FileTree} {path : Path} {lost : Place → Entry → Prop}

section walk

variable {follow : Bool} {links : Nat} {here : Place} {pieces : List String}

/-- Where there are no links it makes no difference whether they are followed. -/
theorem LinkFree.walk_follow (h : tree.LinkFree) :
    tree.walk true links here pieces = tree.walk false links here pieces := by
  induction pieces generalizing here with
  | nil => rw [walk, walk]
  | cons piece rest ih =>
    cases hrest : rest.all (· == "") with
    | true =>
      rcases component?_cases piece with ⟨rfl | rfl, -⟩ | ⟨rfl, -⟩ | ⟨hp, -⟩
      · rw [walk, walk, ih]
      · rw [walk_here_last hrest, walk_here_last hrest]
      · rw [walk_up_last hrest, walk_up_last hrest]
      · rw [walk_last h hp hrest, walk_last h hp hrest]
    | false =>
      rcases component?_cases piece with ⟨-, hc⟩ | ⟨rfl, -⟩ | ⟨hp, -⟩
      · rw [walk_trivial hc hrest, walk_trivial hc hrest, ih]
      · rw [walk_up hrest, walk_up hrest, ih]
      · rw [walk_name h hp hrest, walk_name h hp hrest, ih]

/-- Pieces without two dots lead where they led, or their place is empty since a directory on the
way was lost: induction over the pieces, of which only names in the middle ask for an entry. -/
theorem walk_of_shrinks (h : Shrinks lost before after) (hbefore : before.LinkFree)
    (hafter : after.Plain) (hup : .up ∉ pieces.filterMap component?) :
    after.walk follow links here pieces = before.walk follow links here pieces ∨
      after.walk follow links here pieces = .error .notFound ∧
        after.entry? (reach here (pieces.filterMap component?)) = none := by
  induction pieces generalizing here with
  | nil =>
    rw [walk, walk]
    exact Or.inl rfl
  | cons piece rest ih =>
    have hnoUp : .up ∉ rest.filterMap component? := fun hmem =>
      hup (List.mem_filterMap.mpr ((List.mem_filterMap.mp hmem).imp fun _ hc =>
        ⟨List.mem_cons_of_mem _ hc.1, hc.2⟩))
    rcases component?_cases piece with ⟨htrivial, hc⟩ | ⟨rfl, hc⟩ | ⟨hp, hc⟩
    · rw [List.filterMap_cons_none hc]
      cases hrest : rest.all (· == "") with
      | false =>
        rw [walk_trivial hc hrest, walk_trivial hc hrest]
        exact ih hnoUp
      | true =>
        rcases htrivial with rfl | rfl
        · rw [walk, walk]
          exact ih hnoUp
        · rw [walk_here_last hrest, walk_here_last hrest]
          exact Or.inl rfl
    · exact absurd (List.mem_filterMap.mpr ⟨_, List.mem_cons_self, hc⟩) hup
    · rw [List.filterMap_cons_some hc]
      cases hrest : rest.all (· == "") with
      | true =>
        rw [walk_last hafter.linkFree hp hrest, walk_last hbefore hp hrest]
        exact Or.inl rfl
      | false =>
        rw [walk_name hafter.linkFree hp hrest, walk_name hbefore hp hrest]
        split
        · exact Or.inl rfl
        · rcases h.entries (here ++ [piece]) with hsame | ⟨hnone, -⟩
          · rw [hsame]
            split
            · exact ih hnoUp
            · exact Or.inl rfl
            · exact Or.inl rfl
          · obtain ⟨names, hnames⟩ := filterMap_component?_of_no_up hnoUp
            rw [hnone, hnames, reach, next, reach_names]
            exact Or.inr ⟨rfl, hafter.nothing_below hnone names⟩

end walk

theorem isPresent_iff : tree.isPresent path = true ↔ ∃ found, tree.find path = .ok found := by
  rw [isPresent]
  cases tree.find path with
  | error error => simp [Except.toOption]
  | ok found => simp [Except.toOption]

theorem up_mem_setOut {here : Place}
    (h : .up ∈ (setOut here path).2.filterMap component?) : .up ∈ path.components := by
  have hpieces := Path.pieces_eq_lead path
  unfold setOut Path.isAbsolute at h
  unfold Path.components
  generalize path.lead = parts at hpieces h ⊢
  obtain ⟨start, body⟩ := parts
  rw [hpieces] at h
  cases start with
  | root => exact List.mem_append_right _ h
  | here => exact List.mem_append_right _ h
  | nothing => exact List.mem_append_right _ h

theorem LinkFree.spot_follow (h : tree.LinkFree) (path : Path) :
    tree.spot true path = tree.spot false path := by
  simp only [spot, h.walk_follow]

variable (h : Shrinks lost before after) (hbefore : before.LinkFree) (hafter : after.Plain)
  (hup : .up ∉ path.components)

include h hbefore hafter hup

theorem spot_of_shrinks (follow : Bool) :
    after.spot follow path = before.spot follow path ∨
      after.spot follow path = .error .notFound ∧ after.entry? (after.placeOf path) = none := by
  have hwalk : after.walk follow linkLimit (setOut after.workingDirectory path).1
        (setOut after.workingDirectory path).2 =
          before.walk follow linkLimit (setOut after.workingDirectory path).1
            (setOut after.workingDirectory path).2 ∨ _ :=
    walk_of_shrinks h hbefore hafter fun hmem => hup (up_mem_setOut hmem)
  rw [← (setOut_eq after after.workingDirectory path).1] at hwalk
  simp only [spot, placeOf, ← h.workingDirectory]
  split
  · exact Or.inl rfl
  · split
    · exact Or.inl rfl
    · split
      · exact Or.inl rfl
      · exact hwalk

/-- What a path leads to afterwards it led to before. -/
theorem find_of_shrinks {found : Place × Entry} (hfound : after.find path = .ok found) :
    before.find path = .ok found := by
  obtain ⟨place, entry⟩ := found
  obtain ⟨spot, hs, hplace, hentry, hslash⟩ := find_eq_ok_iff.mp hfound
  rcases spot_of_shrinks h hbefore hafter hup true with hsame | ⟨hnone, -⟩
  · exact find_eq_ok_iff.mpr ⟨spot, hsame ▸ hs, hplace, h.of_after hentry, hslash⟩
  · rw [hs] at hnone
    cases hnone

theorem isPresent_of_shrinks (hpresent : after.isPresent path = true) :
    before.isPresent path = true := by
  obtain ⟨found, hfound⟩ := isPresent_iff.mp hpresent
  exact isPresent_iff.mpr ⟨found, find_of_shrinks h hbefore hafter hup hfound⟩

/-- A path leads to the same if the entry at its end was not lost: then nothing on the way to it was
lost either. -/
theorem find_of_kept {place : Place} {entry : Entry}
    (hfound : before.find path = .ok (place, entry)) (hkept : ¬ lost place entry) :
    after.find path = .ok (place, entry) := by
  obtain ⟨spot, hs, hplace, hentry, hslash⟩ := find_eq_ok_iff.mp hfound
  have hstays := h.keeps hentry hkept
  rcases spot_of_shrinks h hbefore hafter hup true with hsame | ⟨-, hnone⟩
  · exact find_eq_ok_iff.mpr ⟨spot, hsame ▸ hs, hplace, hstays, hslash⟩
  · rw [h.placeOf, ← hbefore.spot_place hs, hplace, hstays] at hnone
    cases hnone

/-- A deletion that fails although nothing is missing would have failed before. -/
theorem deleteFile_error_of_shrinks {cause : FileError} (hcause : cause ≠ .notFound)
    (hfails : after.deleteFile path = .error cause) : before.deleteFile path = .error cause := by
  unfold deleteFile at hfails ⊢
  rcases spot_of_shrinks h hbefore hafter hup false with hsame | ⟨hnone, -⟩
  · rw [hsame] at hfails
    cases hs : before.spot false path with
    | error error => rwa [hs] at hfails
    | ok spot =>
      rw [hs] at hfails
      simp only [bind, Except.bind] at hfails ⊢
      split at hfails
      · rcases h.entries spot.place with hentry | ⟨hentry, -⟩
        · rw [hentry] at hfails
          cases hfound : before.entry? spot.place with
          | none => rwa [hfound] at hfails
          | some entry =>
            rw [hfound] at hfails
            cases hslash : spot.slash <;> cases entry <;> simp_all
        · rw [hentry] at hfails
          exact absurd (Except.error.inj hfails).symm hcause
      · exact hfails
  · rw [hnone] at hfails
    exact absurd (Except.error.inj hfails).symm hcause

omit h hbefore hafter hup

/-- What is deleted was there. -/
theorem LinkFree.isPresent_of_deleteFile (h : tree.LinkFree)
    (hok : tree.deleteFile path = .ok after) : tree.isPresent path = true := by
  obtain ⟨spot, hs, hok⟩ := bind_eq_ok.mp hok
  split at hok
  · split at hok
    · cases hok
    · cases hok
    · rename_i entry _ hentry
      split at hok <;> rename_i hslash
      · cases hok
      · exact isPresent_iff.mpr ⟨(spot.place, entry), find_eq_ok_iff.mpr
          ⟨spot, (h.spot_follow path).trans hs, rfl, hentry, fun htrue => absurd htrue hslash⟩⟩
  · cases hok

/-- What cannot be deleted since it is not found is not there. -/
theorem LinkFree.isPresent_of_notFound (h : tree.LinkFree)
    (herror : tree.deleteFile path = .error .notFound) : tree.isPresent path = false := by
  rw [Bool.eq_false_iff, Ne, isPresent_iff]
  rintro ⟨⟨place, entry⟩, hfound⟩
  obtain ⟨spot, hs, rfl, hentry, -⟩ := find_eq_ok_iff.mp hfound
  rw [h.spot_follow] at hs
  unfold deleteFile at herror
  rw [hs] at herror
  simp only [bind, Except.bind, hentry] at herror
  split at herror
  · cases entry with
    | directory => cases herror
    | file | link | fullDevice =>
      simp only at herror
      split at herror <;> cases herror
  · cases herror

/-- An entry that gets lost with what stands at a place: it stands there itself, or it is a
directory on the way. -/
def LostFor (target place : Place) (entry : Entry) : Prop :=
  place <+: target ∧ (entry = .directory ∨ place = target)

theorem Plain.deleteFile (h : before.Plain) (hok : before.deleteFile path = .ok after) :
    after.Plain ∧ Shrinks (LostFor (before.placeOf path)) before after ∧
      after.isPresent path = false := by
  obtain ⟨spot, name, entry, hs, hname, hentry, hother, rfl⟩ := deleteFile_eq_ok hok
  have hne : spot.place ≠ [] := by simp [place_of_last_name hname]
  have hd : before.entry? spot.place ≠ some .directory := by simpa [hentry] using hother
  refine ⟨(plain_erase h hne hd).1, (shrinks_erase hne hentry).mono ?_,
    isPresent_erase hs hname hd⟩
  rintro place found ⟨rfl, -⟩
  rw [← h.linkFree.spot_place hs]
  exact ⟨List.prefix_rfl, Or.inr rfl⟩

theorem LostFor.not_of_diverge {target place : Place} (h : Diverge target place) (entry : Entry) :
    ¬ LostFor target place entry :=
  fun hlost => h.2 hlost.1

/-- Where nothing is lost at its place a path leads to the same as before. -/
theorem find_unless_lost (h : Shrinks lost before after) (hbefore : before.LinkFree)
    (hafter : after.Plain) (hup : .up ∉ path.components)
    (hkept : ∀ entry, ¬ lost (before.placeOf path) entry) {found : Place × Entry} :
    after.find path = .ok found ↔ before.find path = .ok found := by
  refine ⟨find_of_shrinks h hbefore hafter hup, fun hfound => ?_⟩
  refine find_of_kept h hbefore hafter hup hfound ?_
  rw [(hbefore.of_find hfound).1]
  exact hkept _

theorem isPresent_unless_lost (h : Shrinks lost before after) (hbefore : before.LinkFree)
    (hafter : after.Plain) (hup : .up ∉ path.components)
    (hkept : ∀ entry, ¬ lost (before.placeOf path) entry) :
    after.isPresent path = before.isPresent path := by
  rw [Bool.eq_iff_iff, isPresent_iff, isPresent_iff]
  exact exists_congr fun _ => find_unless_lost h hbefore hafter hup hkept

end FileTree

/-- A path that lies in a directory is not the root. -/
theorem last_ne_root {path parent : Path} (h : path.parent? = some parent)
    {front : List Component} : path.components ≠ front ++ [.root] := by
  intro hcomponents
  unfold Path.parent? at h
  unfold Path.components at hcomponents
  generalize path.lead = parts at h hcomponents
  obtain ⟨start, body⟩ := parts
  simp only at h hcomponents
  rcases List.eq_nil_or_concat' (body.filterMap component?) with hnil | ⟨others, last, hlast⟩
  · have hbody : Path.trimEnd body = [] := by
      by_contra hne
      obtain ⟨last, hlast⟩ := Path.filterMap_dropLast_trimEnd hne
      simp [hnil] at hlast
    rw [hnil, List.append_nil] at hcomponents
    cases start with
    | root => simp [hbody] at h
    | here =>
      have hends := congrArg List.getLast? hcomponents
      simp [Path.Lead.components] at hends
    | nothing => simp [Path.Lead.components] at hcomponents
  · rw [hlast, ← List.append_assoc] at hcomponents
    obtain ⟨-, hend⟩ := List.append_inj' hcomponents rfl
    obtain rfl : last = .root := (List.cons.inj hend).1
    obtain ⟨piece, -, hpiece⟩ := List.mem_filterMap.mp (hlast ▸ List.mem_concat_self)
    rcases FileTree.component?_cases piece with ⟨-, hc⟩ | ⟨-, hc⟩ | ⟨-, hc⟩ <;>
      simp [hc] at hpiece

/-- The directory that a path without two dots lies in is on the way to it. -/
theorem reach_parent? {path parent : Path} (h : path.parent? = some parent)
    (hup : .up ∉ path.components) (home : Place) :
    .up ∉ parent.components ∧ reach home parent.components <+: reach home path.components := by
  obtain ⟨last, hlast⟩ := Path.components_of_parent? h
  have hroot : last ≠ .root := by
    rintro rfl
    exact last_ne_root h hlast
  rw [hlast] at hup ⊢
  rw [List.mem_append, not_or] at hup
  refine ⟨hup.1, ?_⟩
  rw [reach_append]
  cases last with
  | here => exact List.prefix_rfl
  | up => exact absurd (List.mem_singleton_self _) hup.2
  | name name => exact List.prefix_append _ _
  | root => exact absurd rfl hroot

end JavaStubs.Files
