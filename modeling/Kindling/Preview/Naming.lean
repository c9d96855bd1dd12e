import Kindling.Deploy.Lifecycle

/-!
# Preview and service hostnames

`internal/preview/naming.go`, and the repository names of `internal/githubapi`.
-/

namespace Kindling

@[irreducible] def normalizeRepo (repo : String) : String :=
  trimSpace (trimSuffix ".git" (trimPrefix "github.com/" (trimPrefix "http://github.com/"
    (trimPrefix "https://github.com/" (trimSpace repo)))))

def isSlugChar (c : Char) : Bool := ('a' ≤ c && c ≤ 'z') || ('0' ≤ c && c ≤ '9') || c == '-'

/-- Replace every maximal run of characters outside `[a-z0-9-]` by one hyphen. -/
def replaceNonSlug : List Char → List Char
  | [] => []
  | c :: cs =>
    if isSlugChar c then c :: replaceNonSlug cs
    else match cs with
      | [] => ['-']
      | c' :: _ => if isSlugChar c' then '-' :: replaceNonSlug cs else replaceNonSlug cs

def slugProjectName (name : String) : String :=
  let s := trimChar '-' (replaceNonSlug (lower (trimSpace name)).toList)
  if s == [] then "app"
  else if s.length > 40 then String.ofList (trimRightChar '-' (s.take 40))
  else String.ofList s

def slugServiceName (name : String) : String := slugProjectName name

def hostnameBase (baseDomain : String) : String :=
  String.ofList (trimChar '.' (lower baseDomain).toList)

def productionServiceHostname (serviceName projectName baseDomain : String) : String :=
  let base := hostnameBase baseDomain
  if base == "" then ""
  else slugServiceName serviceName ++ "-" ++ slugProjectName projectName ++ "." ++ base

def stableHostname (prNumber : Int) (serviceName projectName baseDomain : String) : String :=
  let base := hostnameBase baseDomain
  if base == "" then ""
  else "pr-" ++ toString prNumber ++ "-" ++ slugServiceName serviceName ++ "-" ++
    slugProjectName projectName ++ "." ++ base

/-- `sha[:7]` cuts bytes, and a commit hash is ASCII. -/
def shortSha (sha : String) : String := String.ofList (sha.toList.take 7)

def immutableHostname (sha : String) (prNumber : Nat)
    (serviceName projectName baseDomain : String) : String :=
  let base := hostnameBase baseDomain
  if base == "" then ""
  else
    let sh := shortSha (lower (trimSpace sha))
    let sh := if sh == "" then "unknown" else sh
    sh ++ "-pr" ++ toString prNumber ++ "-" ++ slugServiceName serviceName ++ "-" ++
      slugProjectName projectName ++ "." ++ base

end Kindling
