/-!
# Keys

The property keys that a search reads.
-/

namespace LocalSearch.Key

def seed := "General.Seed"
def saveBestUnassigned := "General.SaveBestUnassigned"
def coolInAccept := "General.CoolInAccept"

def sequence := "Sequence.Sequence"
def selectionType := "Sequence.SelectionType"
def learningMethod := "Sequence.LearningMethod"
def maxSequenceResetIter := "Sequence.MaxSequenceResetIter"
def hillClimbingRank := "Sequence.HC"
def delugeRank := "Sequence.GD"
def annealingRank := "Sequence.SA"

def hillClimberMaxIdle := "HillClimber.MaxIdle"
def hillClimberNeighbours := "HillClimber.Neighbours"
def hillClimberRandom := "HillClimber.Random"
def hillClimberUpdate := "HillClimber.Update"

def poolNeighbours := "Pool.Neighbours"

def delugeCoolRate := "GreatDeluge.CoolRate"
def delugeCoolRateInv := "GreatDeluge.CoolRateInv"
def delugeUpperBoundRate := "GreatDeluge.UpperBoundRate"
def delugeLowerBoundRate := "GreatDeluge.LowerBoundRate"
def delugeNeighbours := "GreatDeluge.Neighbours"

def initialTemperature := "SimulatedAnnealing.InitialTemperature"
def coolingRate := "SimulatedAnnealing.CoolingRate"
def reheatRate := "SimulatedAnnealing.ReheatRate"
def tempLengthCoef := "SimulatedAnnealing.TempLengthCoef"
def reheatLengthCoef := "SimulatedAnnealing.ReheatLengthCoef"
def restoreBestLengthCoef := "SimulatedAnnealing.RestoreBestLengthCoef"
def stochasticHillClimbing := "SimulatedAnnealing.StochasticHC"
def relativeAcceptance := "SimulatedAnnealing.RelativeAcceptance"
def annealingNeighbours := "SimulatedAnnealing.Neighbours"

def strategy := "Search.Strategy"
def restartLimit := "Search.RestartLimit"
def nextOnReheat := "Search.NextHeuristicsOnReheat"
def alterBoundOnReheat := "Search.NextHeuristicsOnReheat.AlterBound"

def tabuSize := "Construction.TabuSize"
def conflictWeight := "Construction.ConflictWeight"
def valueWeight := "Construction.ValueWeight"

def stopWhenComplete := "Termination.StopWhenComplete"
def maxIters := "Termination.MaxIters"
def timeOut := "Termination.TimeOut"

end LocalSearch.Key
