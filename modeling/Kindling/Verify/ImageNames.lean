import Kindling.Builder.Builds
import Kindling.Verify.Hostnames

/-!
# Image references

A build pushes to `registry/repository:tag`. The repository is the project's on GitHub, whichever
project that is, with the slug of a secondary service after it; the tag is the start of the commit.
-/

namespace Kindling

def components (path : String) : List (List Char) := path.toList.splitOn '/'

/-- The repository's name in lower case, or what is written where no name is left of it. -/
def repositoryName (project : Project) : String :=
  let repo := lower (normalizeRepo project.githubRepository)
  if repo == "" then lower (trimSpace project.githubRepository) else repo

def secondarySlug (service : Option Service) : Option String :=
  (service.filter fun s => !s.isPrimary && trimSpace s.slug != "").map (·.slug)

/-- The place of an image in all the registries, component by component. -/
def pushPath (registryURL : String) (project : Project) (service : Option Service) :
    List (List Char) :=
  components (normalizeRegistryURL registryURL) ++
    match secondarySlug service with
    | some slug => components (trimSuffix "/" (repositoryName project)) ++ components slug
    | none => components (repositoryName project)

theorem components_inj : components s = components t ↔ s = t := by
  refine ⟨fun h => ?_, congrArg components⟩
  have hjoin := congrArg (['/'].intercalate ·) h
  simpa only [components, List.intercalate_splitOn, String.toList_inj] using hjoin

theorem components_append : components (s ++ "/" ++ t) = components s ++ components t := by
  simpa [components] using List.splitOn_append_cons_self s.toList t.toList

theorem components_image (id : Id) (registryURL : String) (project : Project)
    (service : Option Service) (build : Build) :
    let i := builtImage id registryURL project service build
    components (i.registry ++ "/" ++ i.repository) = pushPath registryURL project service := by
  simp only [builtImage, components_append, pushPath, List.append_cancel_left_eq]
  unfold imageRepository secondarySlug
  cases service with
  | none => rfl
  | some s =>
    by_cases h : (!s.isPrimary && trimSpace s.slug != "") = true
    · simp only [h, if_true, Option.filter_some, components_append, Option.map_some]
      rfl
    · simp only [h, if_false, Option.filter_some, Bool.false_eq_true]
      rfl

theorem colon_not_mem_tag (h : isHash build.githubCommit) :
    ':' ∉ (builtImage i registryURL project service build).tag.toList := by
  intro hmem
  rw [builtImage, String.toList_ofList] at hmem
  exact absurd (List.all_eq_true.mp h _ (List.mem_of_mem_take hmem)) (by decide)

theorem Image.ref_inj {i j : Image} (hi : ':' ∉ i.tag.toList) (hj : ':' ∉ j.tag.toList) :
    i.ref = j.ref ↔
      i.registry ++ "/" ++ i.repository = j.registry ++ "/" ++ j.repository ∧ i.tag = j.tag := by
  have hcut {s t s' t' : List Char} (ht : ':' ∉ t) (ht' : ':' ∉ t') :
      s ++ ':' :: t = s' ++ ':' :: t' ↔ s = s' ∧ t = t' := by
    rw [append_cons_eq_iff]
    refine ⟨?_, .inl⟩
    rintro (h | ⟨x, -, rfl⟩ | ⟨x, -, rfl⟩)
    · exact h
    · exact absurd (List.mem_append_right x List.mem_cons_self) ht'
    · exact absurd (List.mem_append_right x List.mem_cons_self) ht
  simp only [Image.ref, ← String.toList_inj, String.toList_append (t := i.tag),
    String.toList_append (t := j.tag), String.toList_append (t := ":"), List.append_assoc,
    show ":".toList = [':'] from rfl, List.singleton_append]
  exact hcut hi hj

/-- Two builds push to different references exactly when their commits differ in the first twelve
digits or their registry, repository and slug make different paths. -/
theorem image_refs_differ_iff {build build' : Build} (hcommit : isHash build.githubCommit)
    (hcommit' : isHash build'.githubCommit) :
    (builtImage i registryURL project service build).ref ≠
        (builtImage j registryURL' project' service' build').ref ↔
      build.githubCommit.toList.take 12 ≠ build'.githubCommit.toList.take 12 ∨
        pushPath registryURL project service ≠ pushPath registryURL' project' service' := by
  rw [Ne, Image.ref_inj (colon_not_mem_tag hcommit) (colon_not_mem_tag hcommit'), ← components_inj,
    components_image, components_image, not_and_or, or_comm]
  simp only [builtImage, String.ofList_inj]

theorem service_refs_differ :
    isHash "0a1b2c3d4e5f60" ∧
    (builtImage 0 "" { id := 1, githubRepository := "acme/shop" }
      (some { id := 3, projectId := 1, slug := "api" })
      { id := 7, projectId := 1, serviceId := some 3, githubCommit := "0a1b2c3d4e5f60" }).ref ≠
    (builtImage 0 "" { id := 1, githubRepository := "acme/shop" }
      (some { id := 2, projectId := 1, isPrimary := true })
      { id := 8, projectId := 1, serviceId := some 2, githubCommit := "0a1b2c3d4e5f60" }).ref :=
  ⟨by decide, (image_refs_differ_iff (by decide) (by decide)).mpr (.inr (by decide +kernel))⟩

/-- Two projects for one repository, and pending builds of two of its commits. -/
def sharedRepositoryWorld : World where
  projects := ⟨[{ id := 1, githubRepository := "acme/shop" },
    { id := 2, githubRepository := "https://github.com/Acme/Shop.git" }], by decide⟩
  builds := ⟨[{ id := 7, projectId := 1, githubCommit := "0a1b2c3d4e5f60" },
    { id := 8, projectId := 2, githubCommit := "0a1b2c3d4e5f61" }], by decide⟩

/-- The second build overwrites the image of the first, and both end with the same image. -/
theorem shared_repository_shares_image :
    let first := (Builder.reconcileBuild ⟨5, true⟩ 7).outcome [] sharedRepositoryWorld
    let second := (Builder.reconcileBuild ⟨5, true⟩ 8).outcome [] first.state
    (builtImage 0 "" { id := 1, githubRepository := "acme/shop" } none
      { id := 7, projectId := 1, githubCommit := "0a1b2c3d4e5f60" }).ref =
    (builtImage 0 "" { id := 2, githubRepository := "https://github.com/Acme/Shop.git" } none
      { id := 8, projectId := 2, githubCommit := "0a1b2c3d4e5f61" }).ref ∧
    second.state.builds.rows.map (fun b => (b.id, b.status, b.imageId)) =
      [(7, .successful, some 1000), (8, .successful, some 1000)] := by
  decide +kernel

end Kindling
