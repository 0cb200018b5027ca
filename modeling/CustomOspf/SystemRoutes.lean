import CustomOspf.RoutingTable

/-!
What is asked of the crate and of the kernel behind it: laws of its two calls, two
kernels that keep them, and what comes of the calls that the table makes.
-/

namespace CustomOspf

namespace SystemRoute

def SameNetwork (r s : SystemRoute) : Prop := r.destination = s.destination ∧ r.prefixLen = s.prefixLen

instance (r s : SystemRoute) : Decidable (SameNetwork r s) := inferInstanceAs (Decidable (_ ∧ _))

end SystemRoute

/-- `held` are the kernel's routes in the table and with the priority that the calls work on. A gateway that the
kernel does not take is refused; another route is only when there is one of its network, and a deletion leaves
the routes of other networks alone. -/
class LawfulNetRoute (κ : Type) [NetRoute κ] where
  held : κ → Set SystemRoute
  Takes : κ → SystemRoute → Prop
  mem_add : ∀ k r s, s ∈ held (NetRoute.add k r).1 ↔ s ∈ held k ∨ ((NetRoute.add k r).2 = true ∧ s = r)
  takes_of_added : ∀ k r, (NetRoute.add k r).2 = true → Takes k r
  added : ∀ k r, Takes k r → (∀ s ∈ held k, ¬ s.SameNetwork r) → (NetRoute.add k r).2 = true
  deleted : ∀ k r s, s ∈ held (NetRoute.delete k r).1 → s ∈ held k ∧ s ≠ r
  untouched : ∀ k r s, s ∈ held k → ¬ s.SameNetwork r → s ∈ held (NetRoute.delete k r).1
  takes_add : ∀ k r, Takes (NetRoute.add k r).1 = Takes k
  takes_delete : ∀ k r, Takes (NetRoute.delete k r).1 = Takes k

/-- A deletion takes out what there is of the network, whatever the gateway. -/
class DeletesNetwork (κ : Type) [NetRoute κ] [LawfulNetRoute κ] : Prop where
  cleared : ∀ (k : κ) r, ∀ s ∈ LawfulNetRoute.held (NetRoute.delete k r).1, ¬ s.SameNetwork r

/-- A route is refused when its network is present, whatever the gateway; only a triple that is present is deleted. -/
instance kernelRoutes : NetRoute (Finset SystemRoute) where
  add kernel route :=
    if ∃ present ∈ kernel, present.SameNetwork route then (kernel, false) else (insert route kernel, true)
  delete kernel route := if route ∈ kernel then (kernel.erase route, true) else (kernel, false)

instance : LawfulNetRoute (Finset SystemRoute) where
  held kernel := ↑kernel
  Takes _ _ := True
  mem_add kernel route s := by
    by_cases h : ∃ present ∈ kernel, present.SameNetwork route <;> simp [NetRoute.add, h, or_comm]
  takes_of_added _ _ _ := trivial
  added kernel route _ hfree := by
    have hnone : ¬ ∃ present ∈ kernel, present.SameNetwork route := fun ⟨present, hm, hp⟩ => hfree present hm hp
    simp [NetRoute.add, hnone]
  deleted kernel route s hs := by
    by_cases h : route ∈ kernel
    · simpa [NetRoute.delete, h, and_comm] using hs
    · have hpresent : s ∈ kernel := by simpa [NetRoute.delete, h] using hs
      exact ⟨hpresent, fun he => h (he ▸ hpresent)⟩
  untouched kernel route s hs hother := by
    have hne : s ≠ route := by
      rintro rfl
      exact hother ⟨rfl, rfl⟩
    by_cases h : route ∈ kernel
    · simpa [NetRoute.delete, h, hne] using hs
    · simpa [NetRoute.delete, h] using hs
  takes_add _ _ := rfl
  takes_delete _ _ := rfl

@[simp] theorem Kernel.mem_held_finset {kernel : Finset SystemRoute} {s : SystemRoute} :
    s ∈ LawfulNetRoute.held kernel ↔ s ∈ kernel := Iff.rfl

@[simp] theorem Kernel.takes_finset (kernel : Finset SystemRoute) (route : SystemRoute) :
    LawfulNetRoute.Takes kernel route := trivial

/-- The main table of a kernel, with the gateways that it refuses, as the addresses of broadcasts. -/
structure MainTable where
  routes : Finset SystemRoute
  refused : Finset Ipv4Addr
deriving DecidableEq

/-- What is sent with a deletion is the network alone. -/
instance : NetRoute MainTable where
  add kernel route :=
    if route.gateway ∈ kernel.refused ∨ ∃ present ∈ kernel.routes, present.SameNetwork route then (kernel, false)
    else ({ kernel with routes := insert route kernel.routes }, true)
  delete kernel route :=
    if ∃ present ∈ kernel.routes, present.SameNetwork route then
      ({ kernel with routes := kernel.routes.filter (fun present => ¬ present.SameNetwork route) }, true)
    else (kernel, false)

instance : LawfulNetRoute MainTable where
  held kernel := ↑kernel.routes
  Takes kernel route := route.gateway ∉ kernel.refused
  mem_add kernel route s := by
    by_cases h : route.gateway ∈ kernel.refused ∨ ∃ present ∈ kernel.routes, present.SameNetwork route <;>
      simp [NetRoute.add, h, or_comm]
  takes_of_added kernel route hadded htaken := by
    simp [NetRoute.add, htaken] at hadded
  added kernel route htakes hfree := by
    have hnone : ¬ (route.gateway ∈ kernel.refused ∨ ∃ present ∈ kernel.routes, present.SameNetwork route) := by
      rintro (hrefused | ⟨present, hm, hp⟩)
      · exact htakes hrefused
      · exact hfree present hm hp
    simp [NetRoute.add, hnone]
  deleted kernel route s hs := by
    by_cases h : ∃ present ∈ kernel.routes, present.SameNetwork route
    · obtain ⟨hpresent, hother⟩ : s ∈ kernel.routes ∧ ¬ s.SameNetwork route := by
        simpa [NetRoute.delete, h] using hs
      exact ⟨hpresent, fun he => hother (he ▸ ⟨rfl, rfl⟩)⟩
    · have hpresent : s ∈ kernel.routes := by simpa [NetRoute.delete, h] using hs
      exact ⟨hpresent, fun he => h ⟨s, hpresent, he ▸ ⟨rfl, rfl⟩⟩⟩
  untouched kernel route s hs hother := by
    by_cases h : ∃ present ∈ kernel.routes, present.SameNetwork route
    · have hs : s ∈ kernel.routes := hs
      simp [NetRoute.delete, h, hs, hother]
    · simpa [NetRoute.delete, h] using hs
  takes_add kernel route := by
    by_cases h : route.gateway ∈ kernel.refused ∨ ∃ present ∈ kernel.routes, present.SameNetwork route <;>
      simp [NetRoute.add, h]
  takes_delete kernel route := by
    by_cases h : ∃ present ∈ kernel.routes, present.SameNetwork route <;> simp [NetRoute.delete, h]

instance : DeletesNetwork MainTable where
  cleared kernel route s hs hsame := by
    by_cases h : ∃ present ∈ kernel.routes, present.SameNetwork route
    · obtain ⟨-, hother⟩ : s ∈ kernel.routes ∧ ¬ s.SameNetwork route := by
        simpa [LawfulNetRoute.held, NetRoute.delete, h] using hs
      exact hother hsame
    · have hs : s ∈ kernel.routes := by simpa [LawfulNetRoute.held, NetRoute.delete, h] using hs
      exact h ⟨s, hs, hsame⟩

namespace Kernel

open LawfulNetRoute
open RoutingTable (install uninstall)

section Calls

variable {κ : Type} [NetRoute κ]

theorem install_cases (kernel : κ) (route : SystemRoute) :
    ((NetRoute.add kernel route).2 = true ∧ install kernel route = (NetRoute.add kernel route).1) ∨
      ((NetRoute.add kernel route).2 = false ∧
        install kernel route = (NetRoute.add (uninstall (NetRoute.add kernel route).1 route) route).1) := by
  unfold install
  rcases NetRoute.add kernel route with ⟨after, success⟩
  cases success with
  | true => exact Or.inl ⟨rfl, rfl⟩
  | false => exact Or.inr ⟨rfl, rfl⟩

variable [LawfulNetRoute κ] {kernel : κ} {route s : SystemRoute}

@[simp] theorem takes_uninstall : Takes (uninstall kernel route) = Takes kernel := takes_delete kernel route

theorem mem_uninstall_of_other (hother : ¬ s.SameNetwork route) :
    s ∈ held (uninstall kernel route) ↔ s ∈ held kernel :=
  ⟨fun h => (deleted kernel route s h).1, fun h => untouched kernel route s h hother⟩

theorem held_uninstall (honly : ∀ s ∈ held kernel, s.SameNetwork route → s = route) :
    s ∈ held (uninstall kernel route) ↔ s ∈ held kernel ∧ s ≠ route := by
  refine ⟨deleted kernel route s, ?_⟩
  rintro ⟨hs, hne⟩
  exact untouched kernel route s hs (fun hsame => hne (honly s hs hsame))

theorem mem_refused (hrefused : (NetRoute.add kernel route).2 = false) :
    s ∈ held (NetRoute.add kernel route).1 ↔ s ∈ held kernel := by
  simp [mem_add, hrefused]

@[simp] theorem takes_install : Takes (install kernel route) = Takes kernel := by
  rcases install_cases kernel route with ⟨-, h⟩ | ⟨-, h⟩ <;> simp [h, takes_add]

theorem mem_of_install (h : s ∈ held (install kernel route)) : s ∈ held kernel ∨ s = route := by
  rcases install_cases kernel route with ⟨-, he⟩ | ⟨hrefused, he⟩
  · rw [he, mem_add] at h
    exact h.imp_right And.right
  · rw [he, mem_add] at h
    refine h.imp (fun hs => ?_) And.right
    exact (mem_refused hrefused).mp (deleted _ route s hs).1

theorem mem_install_of_other (hother : ¬ s.SameNetwork route) :
    s ∈ held (install kernel route) ↔ s ∈ held kernel := by
  have hne : s ≠ route := by
    rintro rfl
    exact hother ⟨rfl, rfl⟩
  refine ⟨fun h => (mem_of_install h).resolve_right hne, fun h => ?_⟩
  rcases install_cases kernel route with ⟨-, he⟩ | ⟨hrefused, he⟩
  · rw [he, mem_add]
    exact Or.inl h
  · rw [he, mem_add, mem_uninstall_of_other hother, mem_refused hrefused]
    exact Or.inl h

theorem held_install (hfree : ∀ s ∈ held kernel, ¬ s.SameNetwork route) :
    s ∈ held (install kernel route) ↔ s ∈ held kernel ∨ (Takes kernel route ∧ s = route) := by
  by_cases hother : s.SameNetwork route
  · have habsent : s ∉ held kernel := fun hs => hfree s hs hother
    simp only [habsent, false_or]
    constructor
    · intro h
      obtain rfl := (mem_of_install h).resolve_left habsent
      refine ⟨?_, rfl⟩
      rcases install_cases kernel s with ⟨hadded, -⟩ | ⟨hrefused, he⟩
      · exact takes_of_added kernel s hadded
      · rw [he, mem_add] at h
        rcases h with hs | ⟨hadded, -⟩
        · exact absurd rfl (deleted _ s s hs).2
        · have htaken := takes_of_added _ s hadded
          simpa [takes_add] using htaken
    · rintro ⟨htakes, rfl⟩
      rcases install_cases kernel s with ⟨hadded, he⟩ | ⟨hrefused, -⟩
      · rw [he, mem_add]
        exact Or.inr ⟨hadded, rfl⟩
      · rw [added kernel s htakes hfree] at hrefused
        cases hrefused
  · rw [mem_install_of_other hother]
    refine ⟨Or.inl, fun h => h.resolve_right ?_⟩
    rintro ⟨-, rfl⟩
    exact hother ⟨rfl, rfl⟩

theorem install_reaches (htakes : Takes kernel route) : ∃ s ∈ held (install kernel route), s.SameNetwork route := by
  have hlast (k : κ) (hk : Takes k route) : ∃ s ∈ held (NetRoute.add k route).1, s.SameNetwork route := by
    by_cases hfree : ∀ s ∈ held k, ¬ s.SameNetwork route
    · exact ⟨route, (mem_add k route route).mpr (Or.inr ⟨added k route hk hfree, rfl⟩), rfl, rfl⟩
    · obtain ⟨s, hs, hsame⟩ : ∃ s ∈ held k, s.SameNetwork route := by simpa using hfree
      exact ⟨s, (mem_add k route s).mpr (Or.inl hs), hsame⟩
  rcases install_cases kernel route with ⟨-, he⟩ | ⟨-, he⟩
  · rw [he]
    exact hlast kernel htakes
  · rw [he]
    apply hlast
    rw [takes_uninstall, takes_add]
    exact htakes

theorem mem_install_self [DeletesNetwork κ] : route ∈ held (install kernel route) ↔ Takes kernel route := by
  rcases install_cases kernel route with ⟨hadded, he⟩ | ⟨hrefused, he⟩
  · rw [he, mem_add]
    exact iff_of_true (Or.inr ⟨hadded, rfl⟩) (takes_of_added kernel route hadded)
  · have hfree := DeletesNetwork.cleared (NetRoute.add kernel route).1 route
    have htakes : Takes (uninstall (NetRoute.add kernel route).1 route) = Takes kernel := by
      rw [takes_uninstall, takes_add]
    rw [he, mem_add]
    constructor
    · rintro (hs | ⟨hadded, -⟩)
      · exact absurd ⟨rfl, rfl⟩ (hfree route hs)
      · rw [← htakes]
        exact takes_of_added _ route hadded
    · intro h
      rw [← htakes] at h
      exact Or.inr ⟨added _ route h hfree, rfl⟩

end Calls

end Kernel

end CustomOspf
