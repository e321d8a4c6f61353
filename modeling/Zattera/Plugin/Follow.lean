/-
This file models how the follow plugin records who follows whom. A follow object
holds the bits of one account's attitude to another, and the two counts of an
account are kept beside the follow objects, adjusted from the old and the new
blog bit. An operation that fails is undone, so it leaves the state as it was.
-/

import Zattera.Lib.Table
import Zattera.Protocol.Types

namespace Zattera

open Program

/-! ### Objects -/

/-- `follow_type` -/
inductive FollowType where
  | undefined
  | blog
  | ignore
  deriving DecidableEq

/-- `follow_type_map`; an unknown text is undefined. -/
def FollowType.ofString : String → FollowType
  | "blog" => .blog
  | "ignore" => .ignore
  | _ => .undefined

/-- `follow_object` -/
structure Follow where
  follower : AccountName
  following : AccountName
  what : UInt16

/-- The `by_follower_following` index -/
def Follow.key (follow : Follow) : AccountName × AccountName := (follow.follower, follow.following)

/-- Whether the bit `1 << blog` is set. -/
def Follow.isBlog (follow : Follow) : Bool := follow.what &&& 2 ≠ 0

/-- `follow_count_object` -/
structure FollowCount where
  account : AccountName
  followerCount : UInt32 := 0
  followingCount : UInt32 := 0

/-- What the plugin keeps of follows. -/
structure FollowPlugin where
  follows : Table (AccountName × AccountName) Follow Follow.key := .empty
  counts : Table AccountName FollowCount FollowCount.account := .empty

/-- `follow_operation` -/
structure FollowOperation where
  follower : AccountName
  following : AccountName
  what : List String

/-! ### `follow_evaluator` -/

/-- The bits for the listed texts and whether the blog is followed. -/
def followBits (what : List String) : UInt16 × Bool :=
  what.foldl (fun (bits, isFollowing) target =>
    match FollowType.ofString target with
    | .blog => (bits ||| 2, true)
    | .ignore => (bits ||| 4, isFollowing)
    | .undefined => (bits, isFollowing)) (0, false)

/-- The two ends of a follow. The count of a follower is of those it follows. -/
inductive FollowRole where
  | follower
  | following
  deriving DecidableEq

def Follow.account (follow : Follow) : FollowRole → AccountName
  | .follower => follow.follower
  | .following => follow.following

def FollowCount.count (counts : FollowCount) : FollowRole → UInt32
  | .follower => counts.followingCount
  | .following => counts.followerCount

def FollowCount.withCount (counts : FollowCount) (count : UInt32) : FollowRole → FollowCount
  | .follower => { counts with followingCount := count }
  | .following => { counts with followerCount := count }

/-- A counter, after a follow that may have counted before. -/
def adjustedCount (wasFollowed isFollowing : Bool) (count : UInt32) : UInt32 :=
  let left := if wasFollowed then count - 1 else count
  if isFollowing then left + 1 else left

/-- Create or modify the counts of an account. -/
def FollowPlugin.adjustCount (plugin : FollowPlugin) (wasFollowed isFollowing : Bool)
    (role : FollowRole) (account : AccountName) : FollowPlugin :=
  { plugin with counts := match plugin.counts.find? account with
    | none => plugin.counts.insertNew
        (FollowCount.withCount { account } (if isFollowing then 1 else 0) role)
    | some counts => plugin.counts.replace
        (counts.withCount (adjustedCount wasFollowed isFollowing (counts.count role)) role) }

/-- Create or modify a follow object. -/
def FollowPlugin.putFollow (plugin : FollowPlugin) (follow : Follow) : FollowPlugin :=
  { plugin with follows := match plugin.follows.find? follow.key with
    | none => plugin.follows.insertNew follow
    | some _ => plugin.follows.replace follow }

/-- Whether there is a follow object under a key with its blog bit set. -/
def FollowPlugin.wasFollowed (plugin : FollowPlugin) (key : AccountName × AccountName) : Bool :=
  match plugin.follows.find? key with
  | none => false
  | some old => old.isBlog

/-- Record a follow and count it for both of its ends. -/
def FollowPlugin.record (plugin : FollowPlugin) (follow : Follow) (isFollowing : Bool) :
    FollowPlugin :=
  let wasFollowed := plugin.wasFollowed follow.key
  ((plugin.putFollow follow).adjustCount wasFollowed isFollowing .follower
    follow.follower).adjustCount wasFollowed isFollowing .following follow.following

/-- `follow_evaluator::do_apply`. That nobody follows themselves is checked before, in `validate`;
nothing here depends on it. -/
def FollowPlugin.doApply (plugin : FollowPlugin) (o : FollowOperation) :
    Except ChainError FollowPlugin := do
  let bits := followBits o.what
  ensure (bits.1 &&& 4 ≠ 0 → bits.1 &&& 2 = 0)
    (.assertion "Cannot follow blog and ignore author at the same time")
  return plugin.record ⟨o.follower, o.following, bits.1⟩ bits.2

/-- The state after a sequence of operations, of which some may fail. -/
def FollowPlugin.run (plugin : FollowPlugin) (operations : List FollowOperation) : FollowPlugin :=
  operations.foldl (fun plugin o => match plugin.doApply o with
    | .ok changed => changed
    | .error _ => plugin) plugin

end Zattera
