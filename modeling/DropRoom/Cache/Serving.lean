import DropRoom.Cache.Engine

namespace DropRoom.Cache

/-!
# Serving over a network

* `Engine.serve` — the answer to a request;
* `Engine.settle` — do all background work;
* `Engine.install` — fetch static assets, and `InstallReport`, what became of them.
-/

open Http (Network Request)

variable {ν : Type}

/-- Which of the static assets are kept now. -/
structure InstallReport where
  cached : List String
  failed : List String
  deriving DecidableEq, Repr

namespace InstallReport

/-- Nothing has been fetched. -/
def empty : InstallReport := ⟨[], []⟩

/-- Report on one more asset before the others. -/
def report (url : Url) (kept : Bool) (others : InstallReport) : InstallReport :=
  if kept then { others with cached := url.render :: others.cached }
  else { others with failed := url.render :: others.failed }

end InstallReport

namespace Engine

/-- The answer to a request. -/
def serve (e : Engine) (network : Network ν) (strategy : Strategy) (request : Request) (s : ν) :
    Except CacheError Served × Engine × ν :=
  match e.begin strategy request with
  | (some served, e) => (.ok served, e, s)
  | (none, e) =>
    let (answer, s) := network.fetch request s
    let (result, e) := e.complete strategy request answer
    (result, e, s)

/-- Do the writes, the first of the list first. -/
def settleWrites (e : Engine) : Engine :=
  e.writes.foldl (fun e _ => e.finishWrite 0) e

/-- Fetch the answers to refreshes and end them, the first of the list first. -/
def settleRefreshes (network : Network ν) : List Request → Engine → ν → Engine × ν
  | [], e, s => (e, s)
  | request :: requests, e, s =>
    let (answer, s) := network.fetch request s
    settleRefreshes network requests (e.finishRefresh 0 answer) s

/-- Do all background work. -/
def settle (e : Engine) (network : Network ν) (s : ν) : Engine × ν :=
  let e := e.settleWrites
  settleRefreshes network e.refreshes e s

/-- Fetch static assets in order and keep those that there are. -/
def install (network : Network ν) : List Url → Engine → ν → InstallReport × Engine × ν
  | [], e, s => (.empty, e, s)
  | url :: urls, e, s =>
    let (answer, s) := network.fetch (.get url) s
    let (kept, e) := e.keepAsset url answer
    let (others, e, s) := install network urls e s
    (others.report url kept, e, s)

end Engine

end DropRoom.Cache
