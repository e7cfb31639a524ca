import KernelLaunch.Number.Binary64
/-!
# Similar names

When a command line names a subcommand or an option that does not exist, the
closest existing names are offered instead. Closeness is the Jaro similarity
of the two names: two characters match when they are equal, each is matched
at most once, and they lie within half the longer length (less one) of each
other; the similarity averages the share of matched characters in either name
with the share of matches that are in the same order. The shares, their sum
and the average are binary64 numbers, each rounded as it is formed, so a
similarity of exactly seven tenths can come out just above the binary64
number nearest seven tenths. A name is offered when its similarity exceeds
that number.
-/

namespace KernelLaunch

namespace Cli

/-- The binary64 number nearest seven tenths: the least similarity that is not
close. -/
def closeBound : Binary64 := Binary64.ofRatio false 7 10

/-- Whether a similarity counts as close. -/
def isClose (s : Binary64) : Bool := closeBound.lt s

/-- The characters of `a` matched in `b`, in the order of `a`, and the
positions of `b` that were matched. -/
def matchesWithin (a b : Array Char) (range : Nat) : List Char × List Nat :=
  let step (acc : List Char × List Nat) (i : Nat) : List Char × List Nat :=
    let (chars, taken) := acc
    match a[i]? with
    | none => acc
    | some c =>
        let lo := i - range
        let hi := min b.size (i + range + 1)
        match (List.range' lo (hi - lo)).find? (fun j => b[j]? == some c && !taken.contains j) with
        | some j => (chars ++ [c], taken ++ [j])
        | none => acc
  (List.range a.size).foldl step ([], [])

/-- The Jaro similarity of two names, in binary64 arithmetic. -/
def jaro (x y : String) : Binary64 :=
  let a := x.toList.toArray
  let b := y.toList.toArray
  if a.size == 0 && b.size == 0 then Binary64.ofNat 1
  else if a.size == 0 || b.size == 0 then Binary64.ofNat 0
  else
    let range := max a.size b.size / 2 - 1
    let (inA, taken) := matchesWithin a b range
    let m := inA.length
    if m == 0 then Binary64.ofNat 0
    else
      let inB := ((taken.mergeSort (· ≤ ·)).filterMap fun j => b[j]?)
      let half := ((inA.zip inB).filter fun (p, q) => p != q).length / 2
      let share (p q : Nat) : Binary64 := Binary64.ofRatio false p q
      (((share m a.size).add (share m b.size)).add (share (m - half) m)).div (Binary64.ofNat 3)

/-- The names close to `given`, least close first; among equally close names
the earlier stays first. -/
def similarNames (given : String) (names : List String) : List String :=
  let close := (names.map fun n => (jaro given n, n)).filter fun p => isClose p.1
  (close.mergeSort fun p q => !(Binary64.lt q.1 p.1)).map (·.2)

/-- The closest name, if any is close: the last of `similarNames`. -/
def closestName? (given : String) (names : List String) : Option String :=
  (similarNames given names).getLast?

end Cli

end KernelLaunch
