import OnDemand.Word

/-!
# File times

The facility counts time in ticks of 100 ns since the start of 1601; catalogs count whole Unix seconds.
Going to ticks stops at the bounds of a signed word, coming back drops the part below a second.
-/

namespace OnDemand.Filetime

/-- Seconds from the start of 1601 to the start of 1970. -/
def epochDelta : Int := 11644473600

def ticksPerSecond : Int := 10000000

def ofUnix (seconds : Int) : Int := Word.clamp ((seconds + epochDelta) * ticksPerSecond)

def toUnix (ticks : Int) : Int := ticks / ticksPerSecond - epochDelta

/-- The whole Unix seconds of an instant given in nanoseconds since 1970, if a signed word holds them. -/
def unixOfInstant? (nanoseconds : Int) : Option Int :=
  let seconds := nanoseconds / 1000000000
  if Word.fitsSigned seconds then some seconds else none

end OnDemand.Filetime
