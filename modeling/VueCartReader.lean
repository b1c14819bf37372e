import VueCartReader.Board.Running
import VueCartReader.Board.Lanes
import VueCartReader.Board.Loads
import VueCartReader.Safety.Machine
import VueCartReader.Safety.Header
import VueCartReader.Safety.Answer
import VueCartReader.Transfer.Command
import VueCartReader.Transfer.Errors
import VueCartReader.Transfer.Bounds
import VueCartReader.Transfer.Cut
import VueCartReader.Transfer.Read
import VueCartReader.Transfer.Selection
import VueCartReader.Transfer.Flush
import VueCartReader.Transfer.Emission
import VueCartReader.Transfer.Inherited
import VueCartReader.Transfer.Recall
import VueCartReader.Transfer.Protocol
import VueCartReader.Transfer.Dialogue
import VueCartReader.Safety.Reply
import VueCartReader.Transfer.Recovery
